import Intake.Json.Reader
import Intake.Proofs.Document.Spelling
import Intake.Proofs.Json.Escaping

/-!
# Reading what has been written

The scan of a JSON text finds the tokens of the document that has been written, and these
assemble to the document.  Documents with numbers are left out: not every `Numeral` is written
as a number of the JSON grammar.

* `Scans`: characters that are scanned to certain tokens, whatever follows.  A word needs
  something behind it that cannot belong to it.
* `Inside`: characters that stay within a string.
* `scans_writeDocument`: written documents are scanned to their tokens.
* `read?_write`: reading gives back the document that has been written.
-/

namespace Intake.Json

open Document

variable {c : Char} {cs rest : List Char}

theorem tokens?_cons {s next : Scan} {tokens : List (Token Leaf)}
    (h : s.step? c = some (tokens, next)) (rest : List Char) :
    Scan.tokens? s (c :: rest) = (Scan.tokens? next rest).map (tokens ++ ·) := by
  rw [Scan.tokens?, h]
  show Option.bind (Scan.tokens? next rest) _ = _
  cases Scan.tokens? next rest <;> rfl

/-- A step that completes no token. -/
theorem tokens?_cons_of_nil {s next : Scan} (h : s.step? c = some ([], next))
    (rest : List Char) : Scan.tokens? s (c :: rest) = Scan.tokens? next rest := by
  rw [tokens?_cons h]
  cases Scan.tokens? next rest <;> rfl

/-! ### Scanning between tokens -/

/-- Characters behind which a word has ended. -/
def Stops (cs : List Char) : Prop :=
  ∀ c, cs.head? = some c → isWordChar c = false

/-- Characters that are scanned to certain tokens, whatever follows them. -/
def Scans (cs : List Char) (tokens : List (Token Leaf)) : Prop :=
  ∀ rest, Stops rest →
    Scan.tokens? .between (cs ++ rest) = (Scan.tokens? .between rest).map (tokens ++ ·)

theorem scans_nil : Scans [] [] := by
  intro rest _
  cases h : Scan.tokens? .between rest <;> simp [h]

/-- Punctuation is a token by itself and ends a word. -/
theorem step?_of_punctuation {token : Token Leaf} (h : punctuation? c = some token) :
    Scan.step? .between c = some ([token], .between) ∧ isWordChar c = false := by
  have hmark : isSpace c = false ∧ c ≠ '\"' ∧ isWordChar c = false := by
    unfold punctuation? at h
    split at h
    all_goals first | decide | cases h
  obtain ⟨hspace, hquote, hword⟩ := hmark
  refine ⟨?_, hword⟩
  rw [Scan.step?, Scan.fresh?, hspace, if_neg Bool.false_ne_true, if_neg hquote, hword,
    if_neg Bool.false_ne_true, h]
  rfl

theorem Scans.append_cons {cs' : List Char} {token : Token Leaf}
    {tokens tokens' : List (Token Leaf)} (h : Scans cs tokens)
    (hc : punctuation? c = some token) (h' : Scans cs' tokens') :
    Scans (cs ++ c :: cs') (tokens ++ token :: tokens') := by
  intro rest hrest
  obtain ⟨hstep, hword⟩ := step?_of_punctuation hc
  have hstops : Stops (c :: cs' ++ rest) := by
    rintro _ ⟨⟩
    exact hword
  rw [List.append_assoc, h _ hstops, List.cons_append, tokens?_cons hstep, h' rest hrest]
  cases Scan.tokens? .between rest with
  | none => rfl
  | some ts => simp

theorem Scans.cons {token : Token Leaf} {tokens : List (Token Leaf)}
    (hc : punctuation? c = some token) (h : Scans cs tokens) :
    Scans (c :: cs) (token :: tokens) :=
  scans_nil.append_cons hc h

/-! ### Words -/

theorem step?_of_word (h : isWordChar c = true) :
    Scan.step? .between c = some ([], .word [c]) := by
  have hspace : isSpace c = false := by
    rw [Bool.eq_false_iff]
    intro hspace
    have hblank : c = ' ' ∨ c = '\t' ∨ c = '\n' ∨ c = '\r' := by simpa [isSpace] using hspace
    rcases hblank with rfl | rfl | rfl | rfl <;> exact absurd h (by decide)
  have hquote : c ≠ '\"' := by
    rintro rfl
    exact absurd h (by decide)
  rw [Scan.step?, Scan.fresh?, hspace, if_neg Bool.false_ne_true, if_neg hquote, if_pos h]

/-- The characters of a word are kept backwards. -/
theorem tokens?_word (h : ∀ c ∈ cs, isWordChar c = true) (read rest : List Char) :
    Scan.tokens? (.word read) (cs ++ rest) = Scan.tokens? (.word (cs.reverse ++ read)) rest := by
  induction cs generalizing read with
  | nil => rfl
  | cons c cs ih =>
    have hstep : Scan.step? (.word read) c = some ([], .word (c :: read)) := by
      rw [Scan.step?, if_pos (h c (List.mem_cons_self ..))]
    rw [List.cons_append, tokens?_cons_of_nil hstep,
      ih (fun d hd => h d (List.mem_cons_of_mem _ hd)), List.reverse_cons, List.append_assoc]
    rfl

/-- A word ends in front of characters that stop it. -/
theorem tokens?_word_of_stops {read : List Char} {token : Token Leaf}
    (hread : word? read.reverse = some token) (hrest : Stops rest) :
    Scan.tokens? (.word read) rest = (Scan.tokens? .between rest).map (token :: ·) := by
  cases rest with
  | nil =>
    show (word? read.reverse).map _ = _
    rw [hread]
    rfl
  | cons c rest =>
    have hword : isWordChar c = false := hrest c rfl
    cases hfresh : Scan.fresh? c with
    | none =>
      have hstep : Scan.step? (.word read) c = none := by
        rw [Scan.step?, hword, if_neg Bool.false_ne_true, hread, hfresh]
        rfl
      have hstep' : Scan.step? .between c = none := hfresh
      rw [Scan.tokens?, Scan.tokens?, hstep, hstep']
      rfl
    | some found =>
      obtain ⟨tokens, next⟩ := found
      have hstep : Scan.step? (.word read) c = some (token :: tokens, next) := by
        rw [Scan.step?, hword, if_neg Bool.false_ne_true, hread, hfresh]
        rfl
      have hstep' : Scan.step? .between c = some (tokens, next) := hfresh
      rw [tokens?_cons hstep, tokens?_cons hstep', Option.map_map]
      rfl

/-- Literals are scanned as the words they are. -/
theorem scans_word {token : Token Leaf} (hne : cs ≠ []) (hall : cs.all isWordChar = true)
    (hword : word? cs = some token) : Scans cs [token] := by
  intro rest hrest
  have h : ∀ c ∈ cs, isWordChar c = true := List.all_eq_true.1 hall
  obtain ⟨c, cs, rfl⟩ := List.exists_cons_of_ne_nil hne
  have hread : word? (cs.reverse ++ [c]).reverse = some token := by
    rw [List.reverse_append, List.reverse_reverse]
    exact hword
  rw [List.cons_append, tokens?_cons_of_nil (step?_of_word (h c (List.mem_cons_self ..))),
    tokens?_word (fun d hd => h d (List.mem_cons_of_mem _ hd)),
    tokens?_word_of_stops hread hrest]
  rfl

/-! ### Strings -/

/-- Characters that stay within a string. -/
def Inside (cs : List Char) : Prop :=
  ∀ read rest, Scan.tokens? (.text read) (cs ++ rest) =
    Scan.tokens? (.text (cs.reverse ++ read)) rest

theorem inside_nil : Inside [] :=
  fun _ _ => rfl

theorem Inside.append {cs' : List Char} (h : Inside cs) (h' : Inside cs') :
    Inside (cs ++ cs') := by
  intro read rest
  rw [List.append_assoc, h, h', List.reverse_append, List.append_assoc]

theorem inside_singleton (hquote : c ≠ '\"') (hcontrol : ¬ c.toNat < 0x20) (hescape : c ≠ '\\') :
    Inside [c] := by
  intro read rest
  have hstep : Scan.step? (.text read) c = some ([], .text (c :: read)) := by
    rw [Scan.step?, if_neg hquote, if_neg hcontrol, if_neg hescape]
  exact tokens?_cons_of_nil hstep rest

/-- The character behind a backslash ends nothing. -/
theorem inside_escape (hcontrol : ¬ c.toNat < 0x20) : Inside ['\\', c] := by
  intro read rest
  have hescape : Scan.step? (.text read) '\\' = some ([], .escape read) := by
    rw [Scan.step?, if_neg (by decide), if_neg (by decide), if_pos rfl]
  have hstep : Scan.step? (.escape read) c = some ([], .text (c :: '\\' :: read)) := by
    rw [Scan.step?, if_neg hcontrol]
  show Scan.tokens? (.text read) ('\\' :: c :: rest) = _
  rw [tokens?_cons_of_nil hescape, tokens?_cons_of_nil hstep]
  rfl

theorem inside_of_forall
    (h : ∀ c ∈ cs, c ≠ '\"' ∧ ¬ c.toNat < 0x20 ∧ c ≠ '\\') : Inside cs := by
  induction cs with
  | nil => exact inside_nil
  | cons c cs ih =>
    obtain ⟨hquote, hcontrol, hescape⟩ := h c (List.mem_cons_self ..)
    have htail : Inside cs := ih fun d hd => h d (List.mem_cons_of_mem _ hd)
    exact (inside_singleton hquote hcontrol hescape).append htail

theorem hexDigit_plain :
    ∀ n < 16, hexDigit n ≠ '\"' ∧ ¬ (hexDigit n).toNat < 0x20 ∧ hexDigit n ≠ '\\' := by
  decide

theorem inside_writeChar (c : Char) : Inside (writeChar c) := by
  unfold writeChar
  split
  · exact inside_escape (by decide)
  · rename_i hquote
    split
    · exact inside_escape (by decide)
    · rename_i hescape
      split
      · rename_i hcontrol
        have hdigits : ∀ d ∈ ['0', '0', hexDigit (c.toNat / 16), hexDigit (c.toNat % 16)],
            d ≠ '\"' ∧ ¬ d.toNat < 0x20 ∧ d ≠ '\\' := by
          intro d hd
          simp only [List.mem_cons, List.not_mem_nil, or_false] at hd
          rcases hd with rfl | rfl | rfl | rfl
          · decide
          · decide
          · exact hexDigit_plain _ (by omega)
          · exact hexDigit_plain _ (by omega)
        have hescape' : Inside ['\\', 'u'] := inside_escape (by decide)
        exact hescape'.append (inside_of_forall hdigits)
      · rename_i hcontrol
        exact inside_singleton hquote hcontrol hescape

theorem inside_flatMap_writeChar (cs : List Char) : Inside (cs.flatMap writeChar) := by
  induction cs with
  | nil => exact inside_nil
  | cons c cs ih =>
    rw [List.flatMap_cons]
    exact (inside_writeChar c).append ih

/-- A string is scanned to the leaf that its body stands for. -/
theorem scans_quoted {body : List Char} {a : Leaf} (h : Inside body)
    (hdecode : decodeText? body = some a) : Scans ('\"' :: body ++ ['\"']) [.leaf a] := by
  intro rest _
  have hopen : Scan.step? .between '\"' = some ([], .text []) := rfl
  have hclose : Scan.step? (.text body.reverse) '\"' = some ([.leaf a], .between) := by
    rw [Scan.step?, if_pos rfl, List.reverse_reverse, hdecode]
    rfl
  have hquoted : '\"' :: body ++ ['\"'] ++ rest = '\"' :: (body ++ '\"' :: rest) := by simp
  rw [hquoted, tokens?_cons_of_nil hopen, h, List.append_nil, tokens?_cons hclose]

/-! ### Documents -/

def Leaf.IsNumber (a : Leaf) : Prop :=
  ∃ n, a = .number n

theorem scans_write {a : Leaf} (h : ¬ a.IsNumber) : Scans a.write [.leaf a] := by
  cases a with
  | null => exact scans_word (by decide) (by decide) (by decide)
  | bool b => cases b <;> exact scans_word (by decide) (by decide) (by decide)
  | number n => exact absurd ⟨n, rfl⟩ h
  | text s => exact scans_quoted (inside_flatMap_writeChar _) (decodeText?_flatMap_writeChar s)
  | unpaired =>
    have hescape : Inside ['\\', 'u'] := inside_escape (by decide)
    have hdigits : Inside ['d', '8', '0', '0'] := by
      refine inside_of_forall fun c hc => ?_
      simp only [List.mem_cons, List.not_mem_nil, or_false] at hc
      rcases hc with rfl | rfl | rfl | rfl <;> decide
    exact scans_quoted (hescape.append hdigits) (by decide)

theorem scans_writeItems {items : List (Document Leaf)}
    (h : ∀ d ∈ items, Scans (writeDocument d) d.tokens) :
    Scans (writeItems items) (tokensOfItems items) := by
  have hcomma : punctuation? ',' = some .comma := rfl
  have hclose : punctuation? ']' = some .closeList := rfl
  induction items with
  | nil => exact scans_nil.cons hclose
  | cons d items ih =>
    have hd := h d (List.mem_cons_self ..)
    cases items with
    | nil => exact hd.append_cons hclose scans_nil
    | cons e items =>
      exact hd.append_cons hcomma (ih fun d hd => h d (List.mem_cons_of_mem _ hd))

theorem scans_writeMembers {members : List (Leaf × Document Leaf)}
    (hkeys : ∀ m ∈ members, ¬ m.1.IsNumber)
    (h : ∀ m ∈ members, Scans (writeDocument m.2) m.2.tokens) :
    Scans (writeMembers members) (tokensOfMembers members) := by
  have hcolon : punctuation? ':' = some .colon := rfl
  have hcomma : punctuation? ',' = some .comma := rfl
  have hclose : punctuation? '\x7d' = some .closeObject := rfl
  induction members with
  | nil => exact scans_nil.cons hclose
  | cons m members ih =>
    obtain ⟨k, d⟩ := m
    have hk : Scans k.write [.leaf k] := scans_write (hkeys (k, d) (List.mem_cons_self ..))
    have hd : Scans (writeDocument d) d.tokens := h (k, d) (List.mem_cons_self ..)
    cases members with
    | nil =>
      have hvalue := hd.append_cons hclose scans_nil
      rw [writeMembers, List.append_assoc]
      exact hk.append_cons hcolon hvalue
    | cons m members =>
      have hrest := ih (fun m hm => hkeys m (List.mem_cons_of_mem _ hm))
        fun m hm => h m (List.mem_cons_of_mem _ hm)
      have hvalue := hd.append_cons hcomma hrest
      rw [writeMembers, List.append_assoc]
      exact hk.append_cons hcolon hvalue

/-- Documents without numbers, in which only texts are keys. -/
def Numberless (d : Document Leaf) : Prop :=
  d.Over (fun a => ¬ a.IsNumber) fun k => isText k = true

theorem numberless_text (s : String) : Numberless (.leaf (.text s)) := by
  refine .leaf ?_
  rintro ⟨n, hn⟩
  cases hn

theorem numberless_bool (b : Bool) : Numberless (.leaf (.bool b)) := by
  refine .leaf ?_
  rintro ⟨n, hn⟩
  cases hn

/-- Named parts without numbers make an object without numbers. -/
theorem numberless_object {α : Type} (write : α → Document Leaf) {entries : List (String × α)}
    (h : ∀ e ∈ entries, Numberless (write e.2)) :
    Numberless (.object (entries.map fun e => (.text e.1, write e.2))) := by
  refine .object ?_ ?_
  · intro m hm
    obtain ⟨e, _, rfl⟩ := List.mem_map.1 hm
    rfl
  · intro m hm
    obtain ⟨e, he, rfl⟩ := List.mem_map.1 hm
    exact h e he

/-- **A written document is scanned to its tokens.** -/
theorem scans_writeDocument {d : Document Leaf} (h : Numberless d) :
    Scans (writeDocument d) d.tokens := by
  have hlist : punctuation? '[' = some .openList := rfl
  have hobject : punctuation? '\x7b' = some .openObject := rfl
  induction h with
  | leaf value => exact scans_write value
  | list _ ih => exact (scans_writeItems ih).cons hlist
  | object keys _ ih =>
    refine (scans_writeMembers ?_ ih).cons hobject
    rintro m hm ⟨n, hn⟩
    have htext := keys m hm
    rw [hn] at htext
    cases htext

/-- **Reading gives back the document that has been written.** -/
theorem read?_write {d : Document Leaf} (h : Numberless d) : read? (write d) = some d := by
  have hstops : Stops [] := by
    rintro c ⟨⟩
  have hscan := scans_writeDocument h [] hstops
  rw [List.append_nil] at hscan
  rw [read?, write, String.toList_ofList, hscan]
  show assemble? isText (d.tokens ++ []) = _
  rw [List.append_nil, assemble?_tokens h]

end Intake.Json
