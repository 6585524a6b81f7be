import Intake.Email
import Intake.Proofs.Text.Splitting
import Intake.Text.Alphabet

/-!
# The parts of an address

An address is cut at its last `@`, and each side at its dots.  What is said of every word and of
every label is then said of every character of the address.

* `Email.isAddress_iff`: an address by its two sides.
* `Email.allows_or_slash`: of the characters of an address only the slash is missing from the
  alphabet of addresses.
* `Email.keep_of_isAddress`: reduced to this alphabet, an address loses its slashes and nothing
  else.
-/

namespace Intake

namespace Email

/-- **An address is a local part, an `@` and a domain, each within its limits.** -/
theorem isAddress_iff (s : String) :
    isAddress s = true ↔ ∃ localPart domain, s.toList = localPart ++ '@' :: domain ∧
      '@' ∉ domain ∧ s.utf8ByteSize ≤ maxSize ∧
      (String.ofList localPart).utf8ByteSize ≤ maxLocalSize ∧
      isLocal localPart = true ∧ isDomain domain = true := by
  unfold isAddress
  cases hcut : Text.cutLast? '@' s.toList with
  | none =>
    refine iff_of_false (by simp) fun h => ?_
    obtain ⟨localPart, domain, hs, hat, -⟩ := h
    rw [(Text.cutLast?_eq_some_iff _ _ _ _).2 ⟨hs, hat⟩] at hcut
    cases hcut
  | some parts =>
    obtain ⟨front, back⟩ := parts
    obtain ⟨hs, hat⟩ := (Text.cutLast?_eq_some_iff _ _ _ _).1 hcut
    simp only [Bool.and_eq_true, decide_eq_true_eq]
    constructor
    · intro h
      obtain ⟨⟨⟨hsize, hlocalSize⟩, hlocal⟩, hdomain⟩ := h
      exact ⟨front, back, hs, hat, hsize, hlocalSize, hlocal, hdomain⟩
    · intro h
      obtain ⟨localPart, domain, hs', hat', hsize, hlocalSize, hlocal, hdomain⟩ := h
      -- the last `@` stands in one place only
      rw [(Text.cutLast?_eq_some_iff _ _ _ _).2 ⟨hs', hat'⟩] at hcut
      obtain ⟨rfl, rfl⟩ := Prod.mk.inj (Option.some.inj hcut)
      exact ⟨⟨⟨hsize, hlocalSize⟩, hlocal⟩, hdomain⟩

/-! ### Characters -/

theorem mem_isWord {cs : List Char} {c : Char} (h : isWord cs = true) (hc : c ∈ cs) :
    c.isAlphanum = true ∨ c ∈ wordMarks := by
  have hall := List.all_eq_true.1 (Bool.and_eq_true_iff.1 h).2 c hc
  simpa using hall

theorem mem_isLabel {cs : List Char} {c : Char} (h : isLabel cs = true) (hc : c ∈ cs) :
    c.isAlphanum = true ∨ c = '-' := by
  unfold isLabel at h
  simp only [Bool.and_eq_true] at h
  have hall := List.all_eq_true.1 h.1.1.2 c hc
  simpa using hall

theorem mem_isTopLabel {cs : List Char} {c : Char} (h : isTopLabel cs = true) (hc : c ∈ cs) :
    c.isAlphanum = true := by
  have hall := List.all_eq_true.1 (Bool.and_eq_true_iff.1 h).2 c hc
  simp [Char.isAlphanum, hall]

theorem mem_isLocal {cs : List Char} {c : Char} (h : isLocal cs = true) (hc : c ∈ cs) :
    c.isAlphanum = true ∨ c ∈ '.' :: wordMarks := by
  obtain rfl | ⟨word, hword, hmem⟩ := Text.mem_splitOn '.' hc
  · exact .inr List.mem_cons_self
  · exact (mem_isWord (List.all_eq_true.1 h word hword) hmem).imp_right (List.mem_cons_of_mem _)

theorem mem_isDomain {cs : List Char} {c : Char} (h : isDomain cs = true) (hc : c ∈ cs) :
    c.isAlphanum = true ∨ c ∈ ['.', '-'] := by
  obtain rfl | ⟨label, hlabel, hmem⟩ := Text.mem_splitOn '.' hc
  · simp
  · rw [← List.mem_reverse] at hlabel
    unfold isDomain at h
    split at h
    next top next labels hsplit =>
      obtain ⟨htop, hlabels⟩ := Bool.and_eq_true_iff.1 h
      rw [hsplit] at hlabel
      obtain rfl | hlabel := List.mem_cons.1 hlabel
      · exact .inl (mem_isTopLabel htop hmem)
      · have halnum := mem_isLabel (List.all_eq_true.1 hlabels label hlabel) hmem
        exact halnum.imp_right fun hc => by simp [hc]
    next => cases h

/-- **Of the characters of an address only the slash is missing from the alphabet of
addresses.** -/
theorem allows_or_slash {s : String} {c : Char} (h : isAddress s = true) (hc : c ∈ s.toList) :
    Text.Alphabet.address.allows c = true ∨ c = '/' := by
  have hall : ('@' :: '.' :: wordMarks).all
      (fun m => Text.Alphabet.address.allows m || m == '/') = true := by decide
  have hmarks : ∀ m ∈ '@' :: '.' :: wordMarks, Text.Alphabet.address.allows m = true ∨ m = '/' := by
    intro m hm
    simpa using List.all_eq_true.1 hall m hm
  have halnum : c.isAlphanum = true → Text.Alphabet.address.allows c = true := by
    intro halnum
    show (c.isAlphanum || _) = true
    rw [halnum, Bool.true_or]
  obtain ⟨localPart, domain, hs, -, -, -, hlocal, hdomain⟩ := (isAddress_iff s).1 h
  rw [hs, List.mem_append, List.mem_cons] at hc
  obtain hc | rfl | hc := hc
  · obtain hc | hc := mem_isLocal hlocal hc
    · exact .inl (halnum hc)
    · exact hmarks c (List.mem_cons_of_mem _ hc)
  · exact hmarks '@' List.mem_cons_self
  · obtain hc | hc := mem_isDomain hdomain hc
    · exact .inl (halnum hc)
    · obtain rfl | rfl : c = '.' ∨ c = '-' := by simpa using hc
      · exact hmarks '.' (List.mem_cons_of_mem _ List.mem_cons_self)
      · exact .inl (by decide)

/-- A text without its slashes. -/
def withoutSlashes (s : String) : String :=
  String.ofList (s.toList.filter (· != '/'))

theorem withoutSlashes_eq_self_iff (s : String) : withoutSlashes s = s ↔ '/' ∉ s.toList := by
  rw [withoutSlashes, ← String.toList_inj, String.toList_ofList, List.filter_eq_self]
  constructor
  · intro h hslash
    exact bne_iff_ne.1 (h '/' hslash) rfl
  · intro h c hc
    exact bne_iff_ne.2 fun heq => h (heq ▸ hc)

/-- **Reduced to the alphabet of addresses, an address loses its slashes and nothing else.** -/
theorem keep_of_isAddress {s : String} (h : isAddress s = true) :
    Text.Alphabet.address.keep s = withoutSlashes s := by
  have hslash : Text.Alphabet.address.allows '/' = false := by decide
  unfold Text.Alphabet.keep withoutSlashes
  congr 1
  refine List.filter_congr fun c hc => ?_
  by_cases hc' : c = '/'
  · simp [hc', hslash]
  · rw [(allows_or_slash h hc).resolve_right hc']
    simp [hc']

end Email

end Intake
