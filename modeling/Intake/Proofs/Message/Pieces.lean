import Intake.Message.Template
import Intake.Proofs.Number.Grammar

/-!
# The grammar of templates

A template is read from left to right.  Where a percent sign or a placeholder is spelled, that is
the next piece; anywhere else the next character is.  A spelling is told by how it begins, so a
template has its pieces in one way only, and no argument has a part in that.

* `Style.letter` is the letter of a style; `Style.ofChar?_eq_some_iff`: no other asks for it.
* `Piece.Spelling`: how percent signs and placeholders are spelled.
* `Spells`: a text is made of pieces; `Spells.unique`.
* `Scan.step_cases`: what reading one character can do.
* `Scan.spells`: the machine finds the pieces of a text.
* `Piece.shown`: what a piece puts into the text.
* `fill_eq_flatten_pieces`: filling a template writes its pieces one after the other.
-/

namespace Intake.Message

open Number

/-! ### Spellings -/

/-- The letter that asks for a style. -/
def Style.letter : Style → Char
  | text => 's'
  | number => 'd'

/-- The spellings that stand for something else than their characters. -/
inductive Piece.Spelling : Piece → List Char → Prop
  | percent : Spelling (.literal '%') ['%', '%']
  | next (style : Style) : Spelling (.next style) ['%', style.letter]
  | numbered {digits : List Char} (some_digit : digits ≠ [])
      (all_digits : ∀ d ∈ digits, d.isDigit = true) (style : Style) :
      Spelling (.numbered (Nat.ofDigitChars 10 digits 0) style)
        ('%' :: digits ++ ['$', style.letter])

/-- No percent sign and no placeholder is spelled at the beginning of a text. -/
def Ordinary (cs : List Char) : Prop :=
  ∀ piece front, Piece.Spelling piece front → ¬ front <+: cs

/-- A text is made of pieces: what is spelled at its beginning, or else its first character, and
the pieces of the rest. -/
inductive Spells : List Char → List Piece → Prop
  | nil : Spells [] []
  | special {cs front rest : List Char} {piece : Piece} {pieces : List Piece}
      (split : front ++ rest = cs) (spelling : piece.Spelling front)
      (spells : Spells rest pieces) : Spells cs (piece :: pieces)
  | literal {c : Char} {rest : List Char} {pieces : List Piece} (ordinary : Ordinary (c :: rest))
      (spells : Spells rest pieces) : Spells (c :: rest) (.literal c :: pieces)

namespace Style

theorem letter_injective {style style' : Style} (h : style.letter = style'.letter) :
    style = style' := by
  cases style <;> cases style' <;> first | rfl | cases h

theorem isDigit_letter (style : Style) : style.letter.isDigit = false := by
  cases style <;> rfl

theorem letter_ne_percent (style : Style) : style.letter ≠ '%' := by
  cases style <;> decide

/-- **A character asks for a style if and only if it is the letter of it.** -/
theorem ofChar?_eq_some_iff {c : Char} {style : Style} :
    ofChar? c = some style ↔ c = style.letter := by
  constructor
  · intro h
    unfold ofChar? at h
    split at h
    next => exact congrArg letter (Option.some.inj h)
    next => exact congrArg letter (Option.some.inj h)
    next => cases h
  · rintro rfl
    cases style <;> rfl

theorem ne_letter_of_ofChar? {c : Char} (h : ofChar? c = none) (style : Style) :
    c ≠ style.letter := by
  intro hc
  rw [ofChar?_eq_some_iff.2 hc] at h
  cases h

end Style

/-- What is spelled behind a percent sign is told by the digits there and by what follows them. -/
theorem Piece.Spelling.behind {piece : Piece} {front rest digits tail : List Char}
    (h : piece.Spelling front) (hdigits : ∀ d ∈ digits, d.isDigit = true) (htail : EndsDigits tail)
    (hsplit : front ++ rest = '%' :: digits ++ tail) :
    (digits = [] ∧ tail = '%' :: rest ∧ piece = .literal '%') ∨
      (∃ style, digits = [] ∧ tail = style.letter :: rest ∧ piece = .next style) ∨
      ∃ style, digits ≠ [] ∧ tail = '$' :: style.letter :: rest ∧
        piece = .numbered (Nat.ofDigitChars 10 digits 0) style := by
  cases h with
  | percent =>
    obtain ⟨rfl, rfl⟩ := digits_append_inj (List.forall_mem_nil _) hdigits
      (endsDigits_cons (by decide) _) htail (List.cons.inj hsplit).2
    exact .inl ⟨rfl, rfl, rfl⟩
  | next style =>
    obtain ⟨rfl, rfl⟩ := digits_append_inj (List.forall_mem_nil _) hdigits
      (endsDigits_cons style.isDigit_letter _) htail (List.cons.inj hsplit).2
    exact .inr (.inl ⟨style, rfl, rfl, rfl⟩)
  | numbered some_digit all_digits style =>
    rw [List.append_assoc] at hsplit
    obtain ⟨rfl, rfl⟩ := digits_append_inj all_digits hdigits
      (endsDigits_cons (by decide) _) htail (List.cons.inj hsplit).2
    exact .inr (.inr ⟨style, some_digit, rfl, rfl⟩)

theorem Piece.Spelling.eq_cons {piece : Piece} {front : List Char} (h : piece.Spelling front) :
    ∃ behind, front = '%' :: behind := by
  cases h <;> exact ⟨_, rfl⟩

theorem Piece.Spelling.append_ne_nil {piece : Piece} {front : List Char} (h : piece.Spelling front)
    (rest : List Char) : front ++ rest ≠ [] := by
  obtain ⟨behind, rfl⟩ := h.eq_cons
  exact List.cons_ne_nil _ _

/-- **Two spellings that begin one text are the same.** -/
theorem Piece.Spelling.unique {piece piece' : Piece} {front front' rest rest' : List Char}
    (h : piece.Spelling front) (h' : piece'.Spelling front')
    (hsplit : front ++ rest = front' ++ rest') : piece = piece' ∧ rest = rest' := by
  cases h' with
  | percent =>
    obtain ⟨-, htail, rfl⟩ | ⟨style, -, htail, -⟩ | ⟨style, hne, -⟩ :=
      h.behind (List.forall_mem_nil _) (endsDigits_cons (by decide) rest') hsplit
    · exact ⟨rfl, (List.cons.inj htail).2.symm⟩
    · exact absurd (List.cons.inj htail).1.symm style.letter_ne_percent
    · exact absurd rfl hne
  | next style' =>
    obtain ⟨-, htail, -⟩ | ⟨style, -, htail, rfl⟩ | ⟨style, hne, -⟩ :=
      h.behind (List.forall_mem_nil _) (endsDigits_cons style'.isDigit_letter rest') hsplit
    · exact absurd (List.cons.inj htail).1 style'.letter_ne_percent
    · obtain ⟨hletter, rfl⟩ := List.cons.inj htail
      rw [Style.letter_injective hletter]
      exact ⟨rfl, rfl⟩
    · exact absurd rfl hne
  | numbered some_digit all_digits style' =>
    rw [List.append_assoc] at hsplit
    obtain ⟨hnil, -⟩ | ⟨style, hnil, -⟩ | ⟨style, -, htail, rfl⟩ :=
      h.behind all_digits (endsDigits_cons (by decide) _) hsplit
    · exact absurd hnil some_digit
    · exact absurd hnil some_digit
    · obtain ⟨hletter, rfl⟩ := List.cons.inj (List.cons.inj htail).2
      rw [Style.letter_injective hletter]
      exact ⟨rfl, rfl⟩

/-- **A text is made of pieces in one way only.** -/
theorem Spells.unique {cs : List Char} {pieces pieces' : List Piece} (h : Spells cs pieces)
    (h' : Spells cs pieces') : pieces = pieces' := by
  induction h generalizing pieces' with
  | nil =>
    cases h' with
    | nil => rfl
    | special split spelling => exact absurd split (spelling.append_ne_nil _)
  | special split spelling _ ih =>
    cases h' with
    | nil => exact absurd split (spelling.append_ne_nil _)
    | special split' spelling' spells' =>
      obtain ⟨rfl, rfl⟩ := spelling.unique spelling' (split.trans split'.symm)
      rw [ih spells']
    | literal ordinary => exact absurd ⟨_, split⟩ (ordinary _ _ spelling)
  | literal ordinary _ ih =>
    cases h' with
    | special split spelling => exact absurd ⟨_, split⟩ (ordinary _ _ spelling)
    | literal _ spells' => rw [ih spells']

/-! ### Where nothing is spelled -/

theorem ordinary_of_ne {c : Char} (h : c ≠ '%') (rest : List Char) : Ordinary (c :: rest) := by
  rintro piece front spelling ⟨tail, split⟩
  obtain ⟨behind, rfl⟩ := spelling.eq_cons
  exact h (List.cons.inj split).1.symm

/-- A percent sign is text if neither another one nor a letter nor a number follows it. -/
theorem ordinary_percent {tail : List Char} (hdigit : EndsDigits tail)
    (hpercent : tail.head? ≠ some '%')
    (hletter : ∀ style : Style, tail.head? ≠ some style.letter) : Ordinary ('%' :: tail) := by
  rintro piece front spelling ⟨rest, split⟩
  obtain ⟨-, rfl, -⟩ | ⟨style, -, rfl, -⟩ | ⟨style, hne, -⟩ :=
    spelling.behind (List.forall_mem_nil _) hdigit split
  · exact hpercent rfl
  · exact hletter style rfl
  · exact hne rfl

/-- A percent sign in front of a number is text if the number ends without a dollar sign. -/
theorem ordinary_digits {digits tail : List Char} (some_digit : digits ≠ [])
    (all_digits : ∀ d ∈ digits, d.isDigit = true) (hdigit : EndsDigits tail)
    (hdollar : tail.head? ≠ some '$') : Ordinary ('%' :: digits ++ tail) := by
  rintro piece front spelling ⟨rest, split⟩
  obtain ⟨hnil, -⟩ | ⟨style, hnil, -⟩ | ⟨style, -, rfl, -⟩ :=
    spelling.behind all_digits hdigit split
  · exact some_digit hnil
  · exact some_digit hnil
  · exact hdollar rfl

/-- A percent sign in front of a number and a dollar sign is text if no letter follows. -/
theorem ordinary_dollar {digits tail : List Char} (some_digit : digits ≠ [])
    (all_digits : ∀ d ∈ digits, d.isDigit = true)
    (hletter : ∀ style : Style, tail.head? ≠ some style.letter) :
    Ordinary ('%' :: digits ++ '$' :: tail) := by
  rintro piece front spelling ⟨rest, split⟩
  obtain ⟨hnil, -⟩ | ⟨style, hnil, -⟩ | ⟨style, -, htail, -⟩ :=
    spelling.behind all_digits (endsDigits_cons (by decide) tail) split
  · exact some_digit hnil
  · exact some_digit hnil
  · obtain ⟨-, rfl⟩ := List.cons.inj htail
    exact hletter style rfl

/-- Characters other than percent signs are text. -/
theorem Spells.literals {front rest : List Char} {pieces : List Piece}
    (hfront : ∀ c ∈ front, c ≠ '%') (h : Spells rest pieces) :
    Spells (front ++ rest) (front.map .literal ++ pieces) := by
  induction front with
  | nil => exact h
  | cons c front ih =>
    rw [List.forall_mem_cons] at hfront
    exact .literal (ordinary_of_ne hfront.1 _) (ih hfront.2)

/-! ### The machine -/

namespace Scan

/-- Between a percent sign and a dollar sign the machine holds a number. -/
def Sound : Scan → Prop
  | plain | percent => True
  | digits read | dollar read => read ≠ [] ∧ ∀ d ∈ read, d.isDigit = true

variable {s : Scan} {c : Char} {rest : List Char}

/-- The end of a template leaves the pending characters without a meaning. -/
theorem Sound.ordinary_pending (hs : s.Sound) : s = .plain ∨ Ordinary s.pending := by
  cases s with
  | plain => exact .inl rfl
  | percent => exact .inr (ordinary_percent (by rintro c ⟨⟩) (by simp) (by simp))
  | digits read =>
    rw [pending, ← List.append_nil ('%' :: read)]
    exact .inr (ordinary_digits hs.1 hs.2 (by rintro c ⟨⟩) (by simp))
  | dollar read => exact .inr (ordinary_dollar hs.1 hs.2 (by simp))

/-- **What reading a character can do.**  It goes on with the pending characters, it completes
them, or it shows that they have no meaning. -/
theorem step_cases (hs : s.Sound) (c : Char) :
    (∃ s', s.step c = ([], s') ∧ s'.Sound ∧ s'.pending = s.pending ++ [c]) ∨
      (∃ piece : Piece, s.step c = ([piece], .plain) ∧ piece.Spelling (s.pending ++ [c])) ∨
      (s.step c = s.restart c ∧ (s = .plain ∨ ∀ rest, Ordinary (s.pending ++ c :: rest))) := by
  cases s with
  | plain => exact .inr (.inr ⟨rfl, .inl rfl⟩)
  | percent =>
    by_cases hpercent : c = '%'
    · subst hpercent
      exact .inr (.inl ⟨.literal '%', rfl, .percent⟩)
    by_cases hdigit : c.isDigit = true
    · refine .inl ⟨.digits [c], ?_, ⟨List.cons_ne_nil _ _, by simpa using hdigit⟩, rfl⟩
      simp only [step, if_neg hpercent, if_pos hdigit]
    cases hstyle : Style.ofChar? c with
    | some style =>
      refine .inr (.inl ⟨.next style, ?_, ?_⟩)
      · simp only [step, if_neg hpercent, if_neg hdigit, hstyle]
      · rw [Style.ofChar?_eq_some_iff.1 hstyle]
        exact .next style
    | none =>
      refine .inr (.inr ⟨?_, .inr fun rest => ?_⟩)
      · simp only [step, if_neg hpercent, if_neg hdigit, hstyle]
      · exact ordinary_percent (endsDigits_cons (by simpa using hdigit) rest)
          (by simpa using hpercent) (by simpa using Style.ne_letter_of_ofChar? hstyle)
  | digits read =>
    by_cases hdigit : c.isDigit = true
    · refine .inl ⟨.digits (read ++ [c]), ?_, ⟨by simp, ?_⟩, rfl⟩
      · simp only [step, if_pos hdigit]
      · intro d hd
        obtain hd | hd := List.mem_append.1 hd
        · exact hs.2 d hd
        · rwa [List.mem_singleton.1 hd]
    by_cases hdollar : c = '$'
    · subst hdollar
      exact .inl ⟨.dollar read, rfl, hs, rfl⟩
    · refine .inr (.inr ⟨?_, .inr fun rest => ?_⟩)
      · simp only [step, if_neg hdigit, if_neg hdollar]
      · exact ordinary_digits hs.1 hs.2 (endsDigits_cons (by simpa using hdigit) rest)
          (by simpa using hdollar)
  | dollar read =>
    have hpending : pending (.dollar read) = '%' :: read ++ ['$'] := rfl
    cases hstyle : Style.ofChar? c with
    | some style =>
      refine .inr (.inl ⟨.numbered (digitsValue read) style, ?_, ?_⟩)
      · simp only [step, hstyle]
      · rw [hpending, List.append_assoc, Style.ofChar?_eq_some_iff.1 hstyle]
        exact .numbered hs.1 hs.2 style
    | none =>
      refine .inr (.inr ⟨?_, .inr fun rest => ?_⟩)
      · simp only [step, hstyle]
      · rw [hpending, List.append_assoc]
        exact ordinary_dollar hs.1 hs.2 (by simpa using Style.ne_letter_of_ofChar? hstyle)

/-- The pending characters hold one percent sign only, in front. -/
theorem Sound.pending_eq (hs : s.Sound) :
    s.pending = [] ∨ ∃ behind, s.pending = '%' :: behind ∧ ∀ d ∈ behind, d ≠ '%' := by
  have hne : ∀ {read : List Char}, (∀ d ∈ read, d.isDigit = true) → ∀ d ∈ read, d ≠ '%' := by
    rintro read hdigits d hd rfl
    cases hdigits '%' hd
  cases s with
  | plain => exact .inl rfl
  | percent => exact .inr ⟨[], rfl, by simp⟩
  | digits read => exact .inr ⟨read, rfl, hne hs.2⟩
  | dollar read =>
    refine .inr ⟨read ++ ['$'], rfl, fun d hd => ?_⟩
    obtain hd | hd := List.mem_append.1 hd
    · exact hne hs.2 d hd
    · rw [List.mem_singleton.1 hd]
      decide

/-- Pending characters without a meaning are text. -/
theorem Sound.spells_pending {pieces : List Piece} (hs : s.Sound)
    (hord : s = .plain ∨ Ordinary (s.pending ++ rest)) (h : Spells rest pieces) :
    Spells (s.pending ++ rest) (s.pending.map .literal ++ pieces) := by
  obtain hnil | ⟨behind, hpending, hbehind⟩ := hs.pending_eq
  · rwa [hnil]
  obtain rfl | hord := hord
  · exact h
  rw [hpending] at hord ⊢
  exact .literal hord (Spells.literals hbehind h)

/-- Reading a character anew behind pending characters that have no meaning. -/
theorem Sound.spells_restart (hs : s.Sound)
    (hord : s = .plain ∨ Ordinary (s.pending ++ c :: rest))
    (ih : ∀ {s : Scan}, s.Sound → Spells (s.pending ++ rest) (s.pieces rest)) :
    Spells (s.pending ++ c :: rest) ((s.restart c).1 ++ (s.restart c).2.pieces rest) := by
  unfold restart
  split
  next hpercent =>
    subst hpercent
    exact hs.spells_pending hord (ih (s := .percent) trivial)
  next hpercent =>
    rw [List.map_append, List.append_assoc]
    have h : Spells rest (pieces .plain rest) := ih (s := .plain) trivial
    exact hs.spells_pending hord (.literal (ordinary_of_ne hpercent rest) h)

/-- **The machine finds the pieces of a text**, of which it has read the pending characters. -/
theorem Sound.spells (cs : List Char) :
    ∀ {s : Scan}, s.Sound → Spells (s.pending ++ cs) (s.pieces cs) := by
  induction cs with
  | nil =>
    intro s hs
    have hord : s = .plain ∨ Ordinary (s.pending ++ []) := by
      rw [List.append_nil]
      exact hs.ordinary_pending
    have h := hs.spells_pending hord .nil
    rwa [List.append_nil (s.pending.map _)] at h
  | cons c rest ih =>
    intro s hs
    rw [pieces]
    obtain ⟨s', hstep, hs', hpending⟩ | ⟨piece, hstep, spelling⟩ | ⟨hstep, hord⟩ := step_cases hs c
    · have h := ih hs'
      rw [hpending, List.append_assoc, List.singleton_append] at h
      rwa [hstep]
    · rw [hstep]
      exact .special (List.append_cons _ _ _).symm spelling (ih (s := .plain) trivial)
    · rw [hstep]
      exact hs.spells_restart (hord.imp_right fun h => h rest) ih

end Scan

/-- **The pieces of a template are what it is made of, and nothing else is.** -/
theorem spells_iff_eq_parse (template : String) (pieces : List Piece) :
    Spells template.toList pieces ↔ pieces = parse template := by
  have hparse : Spells template.toList (parse template) :=
    Scan.Sound.spells template.toList (s := .plain) trivial
  constructor
  · exact fun h => h.unique hparse
  · rintro rfl
    exact hparse

/-! ### What the pieces put into the text -/

/-- An argument as text, or as the whole number it begins with. -/
def Style.written : Style → String → List Char
  | text, arg => arg.toList
  | number, arg => decimal (leadingWhole (arg.toList.dropWhile Text.isWhite))

def Piece.isNext : Piece → Bool
  | next _ => true
  | literal _ | numbered _ _ => false

/-- What a piece puts into the text if `before` unnumbered placeholders stand before it. -/
def Piece.shown (args : List String) (before : Nat) : Piece → List Char
  | literal c => [c]
  | next style => args[before]?.elim [] style.written
  | numbered 0 _ => []
  | numbered (position + 1) style => args[position]?.elim [] style.written

theorem Style.show_eq_elim (style : Style) (arg : Option String) :
    style.show arg = arg.elim [] style.written := by
  cases arg with
  | none => cases style <;> rfl
  | some s => cases style <;> rfl

theorem fillFrom_cons (args : List String) (used : Nat) (piece : Piece) (rest : List Piece) :
    fillFrom args used (piece :: rest) =
      piece.shown args used ++ fillFrom args (used + if piece.isNext then 1 else 0) rest := by
  cases piece with
  | literal c => rfl
  | next style =>
    rw [fillFrom, Style.show_eq_elim]
    rfl
  | numbered position style =>
    rw [fillFrom, Style.show_eq_elim]
    cases position with
    | zero => rfl
    | succ position => rfl

/-- Pieces are filled in one after the other. -/
theorem fillFrom_append (args : List String) (front back : List Piece) (used : Nat) :
    fillFrom args used (front ++ back) =
      fillFrom args used front ++ fillFrom args (used + front.countP Piece.isNext) back := by
  induction front generalizing used with
  | nil => simp [fillFrom]
  | cons piece front ih =>
    rw [List.cons_append, fillFrom_cons, fillFrom_cons, ih, List.countP_cons, List.append_assoc,
      Nat.add_assoc, Nat.add_comm (List.countP _ _)]

/-- The text of a template is written as it is. -/
theorem fillFrom_literals (args : List String) (used : Nat) (cs : List Char) (rest : List Piece) :
    fillFrom args used (cs.map Piece.literal ++ rest) = cs ++ fillFrom args used rest := by
  induction cs with
  | nil => rfl
  | cons c cs ih =>
    show c :: fillFrom args used (cs.map Piece.literal ++ rest) = _
    rw [ih]
    rfl

theorem fillFrom_eq_flatten (args : List String) (pieces : List Piece) (used : Nat) :
    fillFrom args used pieces =
      (pieces.mapIdx fun i piece =>
        piece.shown args (used + (pieces.take i).countP Piece.isNext)).flatten := by
  induction pieces generalizing used with
  | nil => rfl
  | cons piece rest ih =>
    have hcount : ∀ i, ((piece :: rest).take (i + 1)).countP Piece.isNext =
        (if piece.isNext then 1 else 0) + (rest.take i).countP Piece.isNext := fun i => by
      rw [List.take_succ_cons, List.countP_cons, Nat.add_comm]
    rw [fillFrom_cons, ih, List.mapIdx_cons, List.flatten_cons]
    simp only [hcount, Nat.add_assoc]
    rfl

/-- **A template has pieces of its own, and the arguments are put where the pieces say.**  The
placeholders without a number take the arguments in order, whatever stands between them. -/
theorem fill_eq_flatten_pieces (template : String) :
    ∃ pieces, (∀ other, Spells template.toList other ↔ other = pieces) ∧
      ∀ args, (fill template args).toList =
        (pieces.mapIdx fun i piece =>
          piece.shown args ((pieces.take i).countP Piece.isNext)).flatten := by
  refine ⟨parse template, spells_iff_eq_parse template, fun args => ?_⟩
  rw [fill, String.toList_ofList, fillFrom_eq_flatten]
  simp only [Nat.zero_add]

/-- A number without a style is text, and so is what looks like a placeholder in an argument. -/
example : fill "%1$%s: %2$s, %d%% (%9$s)" ["4 days", "%s"] = "%1$4 days: %s, 0% ()" := by decide

end Intake.Message
