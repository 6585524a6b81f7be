import Intake.Proofs.Email.Parts
import Intake.Proofs.Rule.Texts
import Intake.Proofs.Text.Pattern
import Intake.Proofs.Text.Printable

/-!
# The grammar of addresses

What the email rule accepts is given here in two more ways: by the parts that an address is put
together from, and by a pattern with limits on the number of bytes.

* `Email.WordChar`: the characters of words, described by those that are left out.
* `Email.Word`, `Email.Label`, `Email.TopLabel` and `Email.Address`: the parts and the whole.
* `isAddress_iff_exists`: an address is what can be put together, within the limits on the number of
  characters.
* `Pattern.mem_address_iff`: the pattern has exactly what can be put together, of any length;
  `isAddress_iff_mem_pattern`: an address is what matches it, within the limits.
* `Rule.Checks.email_iff_grammar`: the email rule in both ways.
-/

namespace Intake

namespace Email

variable {cs : List Char}

/-! ### Parts of an address -/

/-- A character of words: a letter, a digit, or one of ``!#$%&'*+/=?^_`{|}~-``.  These are all
printable characters but those that quote, group or separate. -/
def WordChar (c : Char) : Prop :=
  Text.Printable c ∧ c ∉ "\"(),.:;<>@[\\]".toList

instance (c : Char) : Decidable (WordChar c) :=
  inferInstanceAs (Decidable (_ ∧ _))

theorem wordChar_iff (c : Char) : WordChar c ↔ c.isAlphanum = true ∨ c ∈ wordMarks :=
  (Text.isAlphanum_or_mem_iff wordMarks _ (by decide) (by decide) c).symm

/-- A word of a local part. -/
structure Word (cs : List Char) : Prop where
  ne_nil : cs ≠ []
  mem : ∀ c ∈ cs, WordChar c

/-- A label of a domain. -/
structure Label (cs : List Char) : Prop where
  ne_nil : cs ≠ []
  length_le : cs.length ≤ 63
  mem : ∀ c ∈ cs, c.isAlphanum = true ∨ c = '-'
  head_ne : cs.head? ≠ some '-'
  last_ne : cs.getLast? ≠ some '-'

/-- The last label of a domain. -/
structure TopLabel (cs : List Char) : Prop where
  le_length : 2 ≤ cs.length
  length_le : cs.length ≤ 63
  mem : ∀ c ∈ cs, c.isAlpha = true

theorem isWord_iff : isWord cs = true ↔ Word cs := by
  constructor
  · intro h
    have hne := (Bool.and_eq_true_iff.1 h).1
    exact ⟨by simpa using hne, fun c hc => (wordChar_iff c).2 (mem_isWord h hc)⟩
  · intro h
    have hmem := fun c hc => (wordChar_iff c).1 (h.mem c hc)
    simpa [isWord, h.ne_nil] using hmem

theorem isLabel_iff : isLabel cs = true ↔ Label cs := by
  constructor
  · intro h
    have hmem := fun c hc => mem_isLabel (c := c) h hc
    simp only [isLabel, Bool.and_eq_true, Bool.not_eq_true', List.isEmpty_eq_false_iff,
      decide_eq_true_eq, bne_iff_ne] at h
    obtain ⟨⟨⟨⟨hne, hlength⟩, -⟩, hhead⟩, hlast⟩ := h
    exact ⟨hne, hlength, hmem, hhead, hlast⟩
  · intro h
    have hmem := h.mem
    simpa [isLabel, h.ne_nil, h.length_le, h.head_ne, h.last_ne] using hmem

theorem isTopLabel_iff : isTopLabel cs = true ↔ TopLabel cs := by
  simp only [isTopLabel, Bool.and_eq_true, decide_eq_true_eq, List.all_eq_true]
  constructor
  · intro h
    obtain ⟨⟨hle, hlength⟩, hmem⟩ := h
    exact ⟨hle, hlength, hmem⟩
  · intro h
    exact ⟨⟨h.le_length, h.length_le⟩, h.mem⟩

theorem Word.dot_not_mem (h : Word cs) : '.' ∉ cs :=
  mt (h.mem '.') (by decide)

theorem Label.dot_not_mem (h : Label cs) : '.' ∉ cs :=
  mt (h.mem '.') (by decide)

theorem TopLabel.dot_not_mem (h : TopLabel cs) : '.' ∉ cs :=
  mt (h.mem '.') (by decide)

theorem ne_hyphen_of_isAlphanum {c : Char} (h : c.isAlphanum = true) : c ≠ '-' := by
  intro heq
  rw [heq] at h
  revert h
  decide

theorem label_singleton_iff {c : Char} : Label [c] ↔ c.isAlphanum = true := by
  constructor
  · intro h
    exact (h.mem c List.mem_cons_self).resolve_right fun heq => h.head_ne (heq ▸ rfl)
  · intro hc
    have hne := ne_hyphen_of_isAlphanum hc
    exact ⟨by simp, by simp, by simp [hc], by simpa using hne, by simpa using hne⟩

/-- In a label of two or more characters only the two at its ends have to be letters or digits. -/
theorem label_cons_concat_iff {c d : Char} {inner : List Char} :
    Label (c :: (inner ++ [d])) ↔ c.isAlphanum = true ∧
      (inner.length ≤ 61 ∧ ∀ b ∈ inner, b.isAlphanum = true ∨ b = '-') ∧ d.isAlphanum = true := by
  have hlast : (c :: (inner ++ [d])).getLast? = some d := by
    rw [← List.cons_append, List.getLast?_concat]
  have hsize : (c :: (inner ++ [d])).length = inner.length + 2 := by
    rw [List.length_cons, List.length_append, List.length_singleton]
  constructor
  · intro h
    have hlength := h.length_le
    have hinner : ∀ b ∈ inner, b.isAlphanum = true ∨ b = '-' := fun b hb =>
      h.mem b (List.mem_cons_of_mem _ (List.mem_append_left _ hb))
    have hc := (h.mem c List.mem_cons_self).resolve_right fun heq => h.head_ne (heq ▸ rfl)
    have hd := (h.mem d (by simp)).resolve_right fun heq => h.last_ne (heq ▸ hlast)
    exact ⟨hc, ⟨by omega, hinner⟩, hd⟩
  · intro h
    obtain ⟨hc, ⟨hlength, hinner⟩, hd⟩ := h
    refine ⟨List.cons_ne_nil _ _, by omega, fun b hb => ?_, ?_, ?_⟩
    · obtain rfl | hb | rfl : b = c ∨ b ∈ inner ∨ b = d := by simpa using hb
      · exact .inl hc
      · exact hinner b hb
      · exact .inl hd
    · simpa using ne_hyphen_of_isAlphanum hc
    · simpa [hlast] using ne_hyphen_of_isAlphanum hd

/-- The parts of an address: the words in front of the `@`, and the labels behind it, of which the
last stands apart. -/
structure Address where
  words : List (List Char)
  labels : List (List Char)
  top : List Char
  words_ne_nil : words ≠ []
  labels_ne_nil : labels ≠ []
  word : ∀ cs ∈ words, Word cs
  label : ∀ cs ∈ labels, Label cs
  topLabel : TopLabel top

namespace Address

def localPart (a : Address) : List Char :=
  ['.'].intercalate a.words

def domain (a : Address) : List Char :=
  ['.'].intercalate (a.labels ++ [a.top])

def text (a : Address) : List Char :=
  a.localPart ++ '@' :: a.domain

end Address

/-! ### Local parts and domains -/

/-- A local part is one or more words, joined by dots. -/
theorem isLocal_iff : isLocal cs = true ↔
    ∃ words : List (List Char), words ≠ [] ∧ (∀ w ∈ words, Word w) ∧
      cs = ['.'].intercalate words := by
  simp only [isLocal, List.all_eq_true, isWord_iff]
  constructor
  · intro h
    exact ⟨cs.splitOn '.', List.splitOn_ne_nil _ _, h, (List.intercalate_splitOn _).symm⟩
  · intro h
    obtain ⟨words, hne, hwords, rfl⟩ := h
    rw [List.splitOn_intercalate _ (fun w hw => (hwords w hw).dot_not_mem) hne]
    exact hwords

/-- A domain is one or more labels and a last one, joined by dots. -/
theorem isDomain_iff : isDomain cs = true ↔
    ∃ (labels : List (List Char)) (top : List Char), labels ≠ [] ∧ (∀ l ∈ labels, Label l) ∧
      TopLabel top ∧ cs = ['.'].intercalate (labels ++ [top]) := by
  constructor
  · intro h
    unfold isDomain at h
    split at h
    next top label labels hsplit =>
      simp only [Bool.and_eq_true, List.all_eq_true, isTopLabel_iff, isLabel_iff] at h
      obtain ⟨htop, hlabels⟩ := h
      have hparts : cs.splitOn '.' = (label :: labels).reverse ++ [top] := by
        rw [← List.reverse_cons, ← hsplit, List.reverse_reverse]
      refine ⟨(label :: labels).reverse, top, by simp, fun l hl => ?_, htop, ?_⟩
      · exact hlabels l (List.mem_reverse.1 hl)
      · rw [← hparts, List.intercalate_splitOn]
    next => cases h
  · intro h
    obtain ⟨labels, top, hne, hlabels, htop, rfl⟩ := h
    have hdot : ∀ l ∈ labels ++ [top], '.' ∉ l := by
      intro l hl
      obtain hl | rfl : l ∈ labels ∨ l = top := by simpa using hl
      · exact (hlabels l hl).dot_not_mem
      · exact htop.dot_not_mem
    obtain ⟨label, rest, hreverse⟩ := List.exists_cons_of_ne_nil (mt List.reverse_eq_nil_iff.1 hne)
    have hall : (label :: rest).all isLabel = true := by
      rw [← hreverse, List.all_reverse, List.all_eq_true]
      exact fun l hl => isLabel_iff.2 (hlabels l hl)
    unfold isDomain
    rw [List.splitOn_intercalate _ hdot (by simp), List.reverse_append, hreverse]
    exact Bool.and_eq_true_iff.2 ⟨isTopLabel_iff.2 htop, hall⟩

/-! ### Addresses -/

namespace Address

theorem isLocal_localPart (a : Address) : isLocal a.localPart = true :=
  isLocal_iff.2 ⟨a.words, a.words_ne_nil, a.word, rfl⟩

theorem isDomain_domain (a : Address) : isDomain a.domain = true :=
  isDomain_iff.2 ⟨a.labels, a.top, a.labels_ne_nil, a.label, a.topLabel, rfl⟩

theorem cutLast?_text (a : Address) :
    Text.cutLast? '@' a.text = some (a.localPart, a.domain) := by
  refine (Text.cutLast?_eq_some_iff _ _ _ _).2 ⟨rfl, fun hat => ?_⟩
  have hat := mem_isDomain a.isDomain_domain hat
  revert hat
  decide

end Address

/-- Sides that can stand in an address are the sides of one. -/
theorem exists_address {l d : List Char} (hl : isLocal l = true) (hd : isDomain d = true) :
    ∃ a : Address, l = a.localPart ∧ d = a.domain := by
  obtain ⟨words, hwords, hword, rfl⟩ := isLocal_iff.1 hl
  obtain ⟨labels, top, hlabels, hlabel, htop, rfl⟩ := isDomain_iff.1 hd
  exact ⟨⟨words, labels, top, hwords, hlabels, hword, hlabel, htop⟩, rfl, rfl⟩

/-! ### Sizes -/

/-- The characters of an address are printable. -/
theorem Address.printable_of_mem {a : Address} {c : Char} (h : c ∈ a.text) : Text.Printable c := by
  rw [Address.text, List.mem_append, List.mem_cons] at h
  obtain h | rfl | h := h
  · obtain rfl | ⟨word, hword, hmem⟩ := Text.mem_intercalate _ h
    · decide
    · exact ((a.word word hword).mem c hmem).1
  · decide
  · obtain halnum | hm := mem_isDomain a.isDomain_domain h
    · exact Text.printable_of_isAlphanum halnum
    · obtain rfl | rfl : c = '.' ∨ c = '-' := by simpa using hm
      · decide
      · decide

theorem utf8ByteSize_ofList_of_forall (h : ∀ c ∈ cs, c.utf8Size = 1) :
    (String.ofList cs).utf8ByteSize = cs.length := by
  induction cs with
  | nil => rfl
  | cons c rest ih =>
    obtain ⟨hc, hrest⟩ := List.forall_mem_cons.1 h
    rw [String.ofList_cons, String.utf8ByteSize_append, String.utf8ByteSize_singleton, hc, ih hrest,
      List.length_cons, Nat.add_comm]

namespace Address

theorem utf8ByteSize_text (a : Address) : (String.ofList a.text).utf8ByteSize = a.text.length :=
  utf8ByteSize_ofList_of_forall fun _ hc => Text.utf8Size_of_printable (a.printable_of_mem hc)

theorem utf8ByteSize_localPart (a : Address) :
    (String.ofList a.localPart).utf8ByteSize = a.localPart.length :=
  utf8ByteSize_ofList_of_forall fun _ hc =>
    Text.utf8Size_of_printable (a.printable_of_mem (List.mem_append_left _ hc))

/-- What is put together is an address unless it is too long. -/
theorem isAddress_text_iff (a : Address) : isAddress (String.ofList a.text) = true ↔
    a.localPart.length ≤ maxLocalSize ∧ a.text.length ≤ maxSize := by
  unfold isAddress
  rw [String.toList_ofList, a.cutLast?_text, a.utf8ByteSize_text]
  show (decide (a.text.length ≤ maxSize) &&
    decide ((String.ofList a.localPart).utf8ByteSize ≤ maxLocalSize) &&
    isLocal a.localPart && isDomain a.domain) = true ↔ _
  rw [a.utf8ByteSize_localPart, a.isLocal_localPart, a.isDomain_domain, Bool.and_true,
    Bool.and_true, Bool.and_eq_true, decide_eq_true_eq, decide_eq_true_eq, and_comm]

end Address

/-- **An address is what can be put together, within the limits on the number of characters.** -/
theorem isAddress_iff_exists (s : String) : isAddress s = true ↔
    ∃ a : Address, s.toList = a.text ∧ a.localPart.length ≤ maxLocalSize ∧ s.length ≤ maxSize := by
  constructor
  · intro h
    obtain ⟨l, d, hs, -, -, -, hl, hd⟩ := (isAddress_iff s).1 h
    obtain ⟨a, rfl, rfl⟩ := exists_address hl hd
    obtain rfl := String.toList_inj.1 (hs.trans String.toList_ofList.symm)
    obtain ⟨hlocal, hsize⟩ := a.isAddress_text_iff.1 h
    exact ⟨a, hs, hlocal, by rwa [String.length_ofList]⟩
  · intro h
    obtain ⟨a, hs, hlocal, hsize⟩ := h
    obtain rfl := String.toList_inj.1 (hs.trans String.toList_ofList.symm)
    rw [String.length_ofList] at hsize
    exact a.isAddress_text_iff.2 ⟨hlocal, hsize⟩

/-! ### The pattern -/

namespace Pattern

open scoped Computability
open Text.Pattern

def word : Language Char :=
  many (oneOf fun c => decide (WordChar c))

/-- A letter or digit, behind which there may be more, of which all but the last may be hyphens. -/
def label : Language Char :=
  oneOf Char.isAlphanum *
    optional (times 0 61 (oneOf fun c => c.isAlphanum || c == '-') * oneOf Char.isAlphanum)

def topLabel : Language Char :=
  times 2 63 (oneOf Char.isAlpha)

/-- Words with dots between them, an `@`, and labels with a dot behind each but the last. -/
def address : Language Char :=
  word * (char '.' * word)∗ * (char '@' * (many (label * char '.') * topLabel))

theorem mem_word_iff : cs ∈ word ↔ Word cs := by
  rw [word, mem_many_oneOf]
  simp only [decide_eq_true_eq]
  exact ⟨fun h => ⟨h.1, h.2⟩, fun h => ⟨h.ne_nil, h.mem⟩⟩

theorem mem_topLabel_iff : cs ∈ topLabel ↔ TopLabel cs := by
  rw [topLabel, mem_times_oneOf]
  exact ⟨fun h => ⟨h.1, h.2.1, h.2.2⟩, fun h => ⟨h.le_length, h.length_le, h.mem⟩⟩

theorem mem_label_iff : cs ∈ label ↔ Label cs := by
  rw [label, mem_oneOf_mul]
  simp only [mem_optional, Language.mem_mul, mem_times_oneOf, mem_oneOf, Bool.or_eq_true,
    beq_iff_eq]
  constructor
  · intro h
    obtain ⟨c, _, hc, rfl | ⟨inner, ⟨-, hlength, hinner⟩, _, ⟨d, hd, rfl⟩, rfl⟩, rfl⟩ := h
    · exact label_singleton_iff.2 hc
    · exact label_cons_concat_iff.2 ⟨hc, ⟨hlength, hinner⟩, hd⟩
  · intro h
    obtain ⟨c, rest, rfl⟩ := List.exists_cons_of_ne_nil h.ne_nil
    obtain rfl | ⟨inner, d, rfl⟩ := List.eq_nil_or_concat' rest
    · exact ⟨c, [], label_singleton_iff.1 h, .inl rfl, rfl⟩
    · obtain ⟨hc, ⟨hlength, hinner⟩, hd⟩ := label_cons_concat_iff.1 h
      exact ⟨c, _, hc, .inr ⟨inner, ⟨Nat.zero_le _, hlength, hinner⟩, [d], ⟨d, hd, rfl⟩, rfl⟩, rfl⟩

/-- **The pattern has exactly what can be put together.** -/
theorem mem_address_iff : cs ∈ address ↔ ∃ a : Address, cs = a.text := by
  rw [address, Language.mem_mul]
  simp only [mem_separated, mem_char_mul, mem_terminated, mem_word_iff, mem_label_iff,
    mem_topLabel_iff]
  constructor
  · intro h
    obtain ⟨_, ⟨words, hwords, hword, rfl⟩, _,
      ⟨_, ⟨labels, top, hlabels, hlabel, htop, rfl⟩, rfl⟩, rfl⟩ := h
    exact ⟨⟨words, labels, top, hwords, hlabels, hword, hlabel, htop⟩, rfl⟩
  · intro h
    obtain ⟨a, rfl⟩ := h
    exact ⟨_, ⟨a.words, a.words_ne_nil, a.word, rfl⟩, _,
      ⟨_, ⟨a.labels, a.top, a.labels_ne_nil, a.label, a.topLabel, rfl⟩, rfl⟩, rfl⟩

end Pattern

/-- **An address is what matches the pattern, within the limits on the number of bytes.** -/
theorem isAddress_iff_mem_pattern (s : String) : isAddress s = true ↔
    s.toList ∈ Pattern.address ∧ s.utf8ByteSize ≤ maxSize ∧ ∃ localPart domain,
      Text.cutLast? '@' s.toList = some (localPart, domain) ∧
        (String.ofList localPart).utf8ByteSize ≤ maxLocalSize := by
  rw [isAddress_iff, Pattern.mem_address_iff]
  constructor
  · intro h
    obtain ⟨l, d, hs, hat, hsize, hlocalSize, hl, hd⟩ := h
    obtain ⟨a, rfl, rfl⟩ := exists_address hl hd
    exact ⟨⟨a, hs⟩, hsize, _, _, (Text.cutLast?_eq_some_iff _ _ _ _).2 ⟨hs, hat⟩, hlocalSize⟩
  · intro h
    obtain ⟨⟨a, hs⟩, hsize, l, d, hcut, hlocalSize⟩ := h
    obtain ⟨hparts, hat⟩ := (Text.cutLast?_eq_some_iff _ _ _ _).1 hcut
    rw [hs, a.cutLast?_text] at hcut
    obtain ⟨rfl, rfl⟩ := Prod.mk.inj (Option.some.inj hcut)
    exact ⟨_, _, hparts, hat, hsize, hlocalSize, a.isLocal_localPart, a.isDomain_domain⟩

end Email

/-! ### The email rule -/

/-- **The email rule accepts its grammar.**  A text that is there and not empty is accepted if and
only if it can be put together as an address with at most 64 characters in front of the `@` and at
most 320 characters in all.  In other words, it has to match the pattern with at most 320 bytes in
all, of which at most 64 stand in front of the last `@`. -/
theorem Rule.Checks.email_iff_grammar {s : Subject} {t : String}
    (h : s.record.get? s.field = some (.text t)) (hne : t ≠ "") (params : List Param) :
    (Checks.email s params = true ↔ ∃ a : Email.Address,
      t.toList = a.text ∧ a.localPart.length ≤ 64 ∧ t.length ≤ 320) ∧
    (Checks.email s params = true ↔ t.toList ∈ Email.Pattern.address ∧
      t.utf8ByteSize ≤ 320 ∧ ∃ localPart domain,
        Text.cutLast? '@' t.toList = some (localPart, domain) ∧
          (String.ofList localPart).utf8ByteSize ≤ 64) := by
  have haddress : Checks.email s params = true ↔ Email.isAddress t = true := by
    rw [email_iff_of_text h, or_iff_right hne]
  exact ⟨haddress.trans (Email.isAddress_iff_exists t),
    haddress.trans (Email.isAddress_iff_mem_pattern t)⟩

/-- Words may have punctuation and labels inner hyphens, but between two dots there is a word. -/
theorem Rule.Checks.email_iff_grammar_of_tagged :
    let good := "first.last+tag@mail-1.example.org"
    let bad := "first..last@example.org"
    (∃ a : Email.Address,
      good.toList = a.text ∧ a.localPart.length ≤ 64 ∧ good.length ≤ 320) ∧
    good.toList ∈ Email.Pattern.address ∧
    ¬∃ a : Email.Address,
      bad.toList = a.text ∧ a.localPart.length ≤ 64 ∧ bad.length ≤ 320 := by
  intro good bad
  have hgood := email_iff_grammar
    (s := ⟨Dict.ofList [("e", .text good)], "e", ⟨2024, 5, 1, by decide⟩⟩) rfl (by decide) []
  have hbad := email_iff_grammar
    (s := ⟨Dict.ofList [("e", .text bad)], "e", ⟨2024, 5, 1, by decide⟩⟩) rfl (by decide) []
  obtain ⟨hpattern, -⟩ := hgood.2.1 (by decide)
  exact ⟨hgood.1.1 (by decide), hpattern, mt hbad.1.2 (by decide)⟩

end Intake
