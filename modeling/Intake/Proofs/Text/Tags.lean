import Intake.Proofs.Text.Stripping
import Intake.Proofs.Text.Visible

/-!
# Tags

A tag begins with a `<` that no white space follows and ends with the first `>` outside its quoted
sections.  It is taken out of the text, and the scan goes on behind it as at the beginning of a
text.  A tag that does not end is taken out with all that follows.

* `Scan.after`: the state behind a text.
* `Body` and `Endless`: what stands in a tag, up to its `>` or up to the end of the text.
* `body_or_endless`: one of the two stands behind every `<` that begins a tag.
* `visible_drops_tags`: tags are taken out.
-/

namespace Intake.Text.Markup

/-! ### Two texts one after the other -/

/-- The state behind a text. -/
def Scan.after (s : Scan) (cs : List Char) : Scan :=
  cs.foldl (fun state c => (state.step c).2) s

theorem visibleFrom_append_after (s : Scan) (front back : List Char) :
    visibleFrom s (front ++ back) =
      visibleFrom s front ++ visibleFrom (s.after front) back := by
  induction front generalizing s with
  | nil => rfl
  | cons c front ih =>
    rw [List.cons_append, visibleFrom, ih, visibleFrom, List.append_assoc]
    rfl

/-! ### The inside of a tag -/

/-- What may stand between `<` and `>`: quoted sections, which end with the quote that they begin
with, and other characters but `>`. -/
inductive Body : List Char → Prop
  | nil : Body []
  | cons {c : Char} {rest : List Char} (double : c ≠ '\"') (single : c ≠ '\'') (close : c ≠ '>')
      (body : Body rest) : Body (c :: rest)
  | quoted {quote : Char} {inner rest : List Char} (quotes : quote = '\"' ∨ quote = '\'')
      (inside : quote ∉ inner) (body : Body rest) : Body (quote :: inner ++ quote :: rest)

/-- Characters without a role in a tag make up a body. -/
theorem Body.of_all {cs : List Char}
    (h : cs.all (fun c => c != '\"' && c != '\'' && c != '>') = true) : Body cs := by
  induction cs with
  | nil => exact .nil
  | cons c rest ih =>
    simp only [List.all_cons, Bool.and_eq_true, bne_iff_ne] at h
    exact .cons h.1.1.1 h.1.1.2 h.1.2 (ih (by simpa using h.2))

/-- What may stand behind the `<` of a tag without end: the last quoted section may be without end
as well. -/
inductive Endless : List Char → Prop
  | closed {cs : List Char} (body : Body cs) : Endless cs
  | quoted {cs inner : List Char} {quote : Char} (body : Body cs)
      (quotes : quote = '\"' ∨ quote = '\'') (inside : quote ∉ inner) :
      Endless (cs ++ quote :: inner)

variable {cs rest : List Char} {quote : Char}

/-- A quoted section goes on over everything but its quote. -/
theorem visibleFrom_quoted (h : quote ∉ cs) (rest : List Char) :
    visibleFrom (.quoted quote) (cs ++ rest) = visibleFrom (.quoted quote) rest := by
  induction cs with
  | nil => rfl
  | cons c cs ih =>
    rw [List.mem_cons, not_or] at h
    have hstep : (Scan.quoted quote).step c = ([], .quoted quote) := by
      rw [Scan.step, if_neg (Ne.symm h.1)]
    rw [List.cons_append, visibleFrom, hstep]
    exact ih h.2

theorem within_quote (h : quote = '\"' ∨ quote = '\'') : Scan.within quote = .quoted quote :=
  if_pos h

/-- **The scan leaves the body of a tag as it came in**, and nothing is written for it. -/
theorem Body.visibleFrom_inside (h : Body cs) (rest : List Char) :
    visibleFrom .inside (cs ++ rest) = visibleFrom .inside rest := by
  induction h with
  | nil => rfl
  | @cons c behind double single close body ih =>
    have hwithin : Scan.within c = .inside := by
      rw [Scan.within, if_neg (not_or.2 ⟨double, single⟩), if_neg close]
    rw [List.cons_append, visibleFrom, Scan.step, hwithin]
    exact ih
  | @quoted quote inner behind quotes inside body ih =>
    have hclose : (Scan.quoted quote).step quote = ([], .inside) := by
      rw [Scan.step, if_pos rfl]
    rw [List.append_assoc, List.cons_append, visibleFrom, Scan.step, within_quote quotes,
      List.nil_append, visibleFrom_quoted inside, List.cons_append, visibleFrom, hclose]
    exact ih

/-- Nothing is written for a tag without end. -/
theorem Endless.visibleFrom_inside (h : Endless cs) : visibleFrom .inside cs = [] := by
  cases h with
  | closed body =>
    have hinside := body.visibleFrom_inside []
    rwa [List.append_nil] at hinside
  | @quoted front inner quote body quotes inside =>
    have hquoted := visibleFrom_quoted inside []
    rw [List.append_nil] at hquoted
    rw [body.visibleFrom_inside, visibleFrom, Scan.step, within_quote quotes]
    exact hquoted

/-- Behind a `<` that begins a tag the scan goes on as inside it. -/
theorem visibleFrom_opened (h : Unspaced cs) :
    visibleFrom .opened cs = visibleFrom .inside cs := by
  cases cs with
  | nil => rfl
  | cons c rest =>
    have hopened : Scan.opened.step c = Scan.inside.step c := by
      have hc := h c rfl
      simp [Scan.step, hc]
    rw [visibleFrom, hopened, visibleFrom]

theorem unspaced_append_close (h : Unspaced cs) (rest : List Char) :
    Unspaced (cs ++ '>' :: rest) := by
  intro c hc
  cases cs with
  | nil =>
    obtain rfl : '>' = c := Option.some.inj hc
    decide
  | cons d cs => exact h c hc

/-! ### Every text is one or the other -/

theorem Body.append {front : List Char} (h : Body front) (hcs : Body cs) : Body (front ++ cs) := by
  induction h with
  | nil => exact hcs
  | cons double single close body ih => exact .cons double single close ih
  | quoted quotes inside body ih =>
    rw [List.append_assoc, List.cons_append]
    exact .quoted quotes inside ih

theorem Body.append_endless {front : List Char} (h : Body front) (hcs : Endless cs) :
    Endless (front ++ cs) := by
  cases hcs with
  | closed body => exact .closed (h.append body)
  | quoted body quotes inside =>
    rw [← List.append_assoc]
    exact .quoted (h.append body) quotes inside

/-- A text begins with `>`, with a part of a body, or with a quoted section without end. -/
theorem begins_tag (c : Char) (cs : List Char) :
    c = '>' ∨ (∃ front behind, c :: cs = front ++ behind ∧ front ≠ [] ∧ Body front) ∨
      Endless (c :: cs) := by
  by_cases hclose : c = '>'
  · exact .inl hclose
  by_cases hquote : c = '\"' ∨ c = '\''
  · by_cases hmem : c ∈ cs
    · obtain ⟨inner, behind, hcs, hinner⟩ := List.eq_append_cons_of_mem hmem
      refine .inr (.inl ⟨c :: inner ++ [c], behind, ?_, List.cons_ne_nil _ _, ?_⟩)
      · simp [hcs]
      · exact .quoted hquote hinner .nil
    · exact .inr (.inr (.quoted .nil hquote hmem))
  · obtain ⟨hdouble, hsingle⟩ := not_or.1 hquote
    exact .inr (.inl ⟨[c], cs, rfl, List.cons_ne_nil _ _, .cons hdouble hsingle hclose .nil⟩)

/-- **Behind every `<` that begins a tag stands the body of a tag with its `>`, or a tag without
end.** -/
theorem body_or_endless (cs : List Char) :
    (∃ body rest, cs = body ++ '>' :: rest ∧ Body body) ∨ Endless cs := by
  induction hlength : cs.length using Nat.strong_induction_on generalizing cs with
  | _ n ih =>
    cases cs with
    | nil => exact .inr (.closed .nil)
    | cons c cs =>
      rcases begins_tag c cs with hclose | ⟨front, behind, hsplit, hne, hfront⟩ | hendless
      · exact .inl ⟨[], cs, by rw [hclose]; rfl, .nil⟩
      · have hshorter : behind.length < n := by
          have hpos : 0 < front.length := List.length_pos_iff.2 hne
          have hsum := congrArg List.length hsplit
          rw [List.length_append] at hsum
          omega
        rw [hsplit]
        rcases ih behind.length hshorter behind rfl with ⟨body, rest, hbehind, hbody⟩ | hendless
        · exact .inl ⟨front ++ body, rest, by simp [hbehind], hfront.append hbody⟩
        · exact .inr (hfront.append_endless hendless)
      · exact .inr hendless

/-! ### Taking tags out -/

/-- The scan of a text, a tag behind it and what follows. -/
theorem visible_append_tag {a : String} (outside : Scan.after .outside a.toList = .outside)
    (u : String) : (visible (a ++ "<" ++ u)).toList =
      (visible a).toList ++ visibleFrom .opened u.toList := by
  simp only [visible, String.toList_append, String.toList_ofList]
  rw [List.append_assoc, visibleFrom_append_after, outside]
  rfl

/-- **Tags are taken out.**  Behind a text that ends outside tags, a tag is taken out, and what
follows is scanned as if it stood alone; a tag without end is taken out as well.  For every `<` that
no white space follows, one of the two is the case. -/
theorem visible_drops_tags {a : String} (outside : Scan.after .outside a.toList = .outside) :
    (∀ t b : String, Unspaced t.toList → Body t.toList →
      visible (a ++ "<" ++ t ++ ">" ++ b) = visible a ++ visible b) ∧
    (∀ u : String, Unspaced u.toList → Endless u.toList → visible (a ++ "<" ++ u) = visible a) ∧
    ∀ r : String, Unspaced r.toList →
      (∃ t b : String, r = t ++ ">" ++ b ∧ Unspaced t.toList ∧ Body t.toList) ∨
        Endless r.toList := by
  refine ⟨?_, ?_, ?_⟩
  · intro t b hspaced hbody
    have hscan : visibleFrom .opened (t ++ ">" ++ b).toList = visibleFrom .outside b.toList := by
      have htag : (t ++ ">" ++ b).toList = t.toList ++ '>' :: b.toList := by
        simp [String.toList_append]
      rw [htag, visibleFrom_opened (unspaced_append_close hspaced b.toList),
        hbody.visibleFrom_inside]
      rfl
    have hassoc : a ++ "<" ++ t ++ ">" ++ b = a ++ "<" ++ (t ++ ">" ++ b) := by
      simp [String.append_assoc]
    rw [hassoc, ← String.toList_inj, visible_append_tag outside, hscan, String.toList_append,
      visible, visible, String.toList_ofList, String.toList_ofList]
  · intro u hspaced hendless
    rw [← String.toList_inj, visible_append_tag outside, visibleFrom_opened hspaced,
      hendless.visibleFrom_inside, List.append_nil]
  · intro r hspaced
    rcases body_or_endless r.toList with ⟨body, rest, hsplit, hbody⟩ | hendless
    · refine .inl ⟨String.ofList body, String.ofList rest, ?_, ?_, ?_⟩
      · rw [← String.toList_inj, hsplit]
        simp [String.toList_append]
      · intro c hc
        rw [String.toList_ofList] at hc
        apply hspaced
        rw [hsplit, List.head?_append, hc]
        rfl
      · rwa [String.toList_ofList]
    · exact .inr hendless

/-- A quoted `>` does not end a tag, and a quoted section without end leaves the tag without end. -/
theorem visible_drops_tags_of_title :
    Scan.after .outside "1 < 2 ".toList = .outside ∧
      visible ("1 < 2 " ++ "<" ++ "a title=\"x>y\"" ++ ">" ++ "'>") =
        visible "1 < 2 " ++ visible "'>" ∧
      visible ("1 < 2 " ++ "<" ++ "a title=\"x>y") = visible "1 < 2 " := by
  have houtside : Scan.after .outside "1 < 2 ".toList = .outside := by decide
  have hname : Body "a title=".toList := .of_all rfl
  have hvalue : Body "\"x>y\"".toList := .quoted (.inl rfl) (by decide : '\"' ∉ "x>y".toList) .nil
  have hbody : Body "a title=\"x>y\"".toList := hname.append hvalue
  have hendless : Endless "a title=\"x>y".toList :=
    .quoted hname (.inl rfl) (by decide : '\"' ∉ "x>y".toList)
  have hspaced : ∀ s : String, s.toList.head? = some 'a' → Unspaced s.toList := by
    intro s hs c hc
    obtain rfl : 'a' = c := Option.some.inj (hs.symm.trans hc)
    decide
  have hdrops := visible_drops_tags houtside
  exact ⟨houtside, hdrops.1 _ "'>" (hspaced _ rfl) hbody, hdrops.2.1 _ (hspaced _ rfl) hendless⟩

end Intake.Text.Markup
