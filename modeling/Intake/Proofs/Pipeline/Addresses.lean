import Intake.Proofs.Email.Parts
import Intake.Proofs.Pipeline.OneField

/-!
# Addresses that are cleaned and examined

The alphabet of addresses and the grammar of addresses are two lists of punctuation.  They
differ in the slash, which the grammar has in its local parts and the alphabet has not.

* `Pipeline.run_keeps_address_iff`: a field with the rule string `email|email` keeps an address
  and accepts it if and only if there is no slash in it.
* `Pipeline.run_changes_address`: an address with a slash becomes another address.
-/

namespace Intake

open Rule Message Cleaning

theorem combines_email : Combines "email|email" .email ⟨"email", []⟩ :=
  .of_tokens "email" "email" rfl rfl rfl rfl rfl

/-- **Cleaning keeps the addresses without slashes.**  Under the tag for addresses, and trimmed or
not, an address loses its slashes, so a field with the rule string `email|email` keeps an address
and accepts it if and only if there is no slash in it. -/
theorem Pipeline.run_keeps_address_iff [PhoneDirectory] (policy : Policy) (strict : Bool)
    (today : Date) (r : Record) (w : Wording) (field t : String)
    (htext : r.get? field = some (.text t)) (hne : t ≠ "")
    (haccepted : Checks.email ⟨r, field, today⟩ [] = true) :
    (Tag.email.fit? (.text t)).map policy.finish = some (.text (Email.withoutSlashes t)) ∧
    ((Tag.email.fit? (.text t)).map policy.finish = some (.text t) ↔ '/' ∉ t.toList) ∧
    (∃ o, Pipeline.run ⟨policy, ⟨.standard, strict⟩⟩ today r
      (Dict.ofList [(field, "email|email")]) w = .ok o) ∧
    ∀ fields o, fields.get? field = some "email|email" →
      Pipeline.run ⟨policy, ⟨.standard, strict⟩⟩ today r fields w = .ok o →
      o.record.get? field = some (.text (Email.withoutSlashes t)) ∧
      ((o.record.get? field = some (.text t) ∧ o.failures.get? field = none) ↔
        '/' ∉ t.toList) := by
  have haddress : Email.isAddress t = true :=
    ((Checks.email_iff_of_text htext []).1 haccepted).resolve_left hne
  have hclean : policy.finishText (Tag.email.cleanText t) = Email.withoutSlashes t := by
    have halphabet : Tag.email.alphabet? = some .address := rfl
    rw [policy.finishText_cleanText halphabet, Email.keep_of_isAddress haddress]
  have hsame : (some (Value.text (Email.withoutSlashes t)) = some (.text t)) ↔
      '/' ∉ t.toList := by
    rw [← Email.withoutSlashes_eq_self_iff]
    exact ⟨fun h => Scalar.text.inj (Value.scalar.inj (Option.some.inj h)), fun h => by rw [h]⟩
  have hfit : (Tag.email.fit? (.text t)).map policy.finish =
      some (.text (Email.withoutSlashes t)) := by
    rw [policy.map_finish_fit?_text rfl, hclean]
  have hrule : Registry.standard.get? "email" =
      some ⟨Checks.email, "The %s is not a valid email address", 0⟩ := by
    rw [Registry.get?_standard]
    rfl
  refine ⟨hfit, by rw [hfit, hsame],
    combines_email.exists_run hrule (Nat.zero_le _) field today r w,
    fun fields o hfields hrun => ?_⟩
  have hrecord : o.record.get? field = some (.text (Email.withoutSlashes t)) := by
    rw [combines_email.get?_record_of_text rfl hrun hfields htext, hclean]
  have hpasses := combines_email.get?_failures_eq_none_iff hrule hrun hfields
  refine ⟨hrecord, ?_⟩
  rw [hrecord, hsame, hpasses, Checks.email_iff_of_text hrecord]
  refine and_iff_left_of_imp fun hslash => ?_
  -- the address is unchanged, and so it is still an address
  rw [(Email.withoutSlashes_eq_self_iff t).2 hslash]
  exact .inr haddress

open TwoCountries in
/-- An address without a slash is kept and accepted. -/
theorem Pipeline.run_keeps_address_iff_of_plain :
    let r : Record := Dict.ofList [("e", .text "ada@example.org")]
    Checks.email ⟨r, "e", ⟨2024, 6, 15, by decide⟩⟩ [] = true ∧
    ∃ o, Pipeline.standard.run ⟨2024, 6, 15, by decide⟩ r (Dict.ofList [("e", "email|email")])
        .empty = .ok o ∧
      o.record.get? "e" = some (.text "ada@example.org") ∧ o.failures.get? "e" = none := by
  intro r
  have haccepted : Checks.email ⟨r, "e", ⟨2024, 6, 15, by decide⟩⟩ [] = true := rfl
  obtain ⟨-, -, ⟨o, hrun⟩, hall⟩ := run_keeps_address_iff {} false ⟨2024, 6, 15, by decide⟩ r
    .empty "e" "ada@example.org" rfl (by decide) haccepted
  exact ⟨haccepted, o, hrun, (hall _ o rfl hrun).2.2 (by decide)⟩

open TwoCountries in
/-- An address with a slash passes the email rule, and a run turns it into another address without
a word. -/
theorem Pipeline.run_changes_address :
    let r : Record := Dict.ofList [("e", .text "a/b@example.com")]
    Checks.email ⟨r, "e", ⟨2024, 6, 15, by decide⟩⟩ [] = true ∧
    ((Tag.email.fit? (.text "a/b@example.com")).map (Policy.finish {})).bind Value.text? =
      some "ab@example.com" ∧
    (Pipeline.standard.run ⟨2024, 6, 15, by decide⟩ r (Dict.ofList [("e", "email|email")])
        .empty).toOption.map (fun o => ((o.record.get? "e").bind Value.text?, o.isValid)) =
      some (some "ab@example.com", true) := by
  exact ⟨rfl, rfl, rfl⟩

end Intake
