import OidcExchange.Adapters.TimestampReader
import OidcExchange.Program.Webhook

/-!
# The input of a webhook signature

The separator of the signed pieces also stands in timestamps and in bodies. A timestamp ends
with the first plus sign after its first character and the offset that begins there, whether it
has a fraction or not, so it is read off the input without looking for a separator; the id has a
fixed length, and what follows it is the body.
-/

set_option autoImplicit false

namespace OidcExchange

open Texts

/-! ## Timestamps -/

/-- Decimal digits, so many of them. -/
structure Digits (count : ℕ) (cs : List Char) : Prop where
  digits : ∀ c ∈ cs, c.isDigit = true
  length : cs.length = count

/-- The year of a timestamp: four digits or more, with or without a sign. -/
def YearForm (year : List Char) : Prop :=
  ∃ sign count digits, year = sign ++ digits ∧ (sign = [] ∨ sign = ['+'] ∨ sign = ['-']) ∧
    Digits count digits ∧ 4 ≤ count

def MonthDayForm (monthDay : List Char) : Prop :=
  ∃ month day, monthDay = '-' :: (month ++ '-' :: day) ∧ Digits 2 month ∧ Digits 2 day

def ClockForm (clock : List Char) : Prop :=
  ∃ hour minute second, clock = 'T' :: (hour ++ ':' :: (minute ++ ':' :: second)) ∧
    Digits 2 hour ∧ Digits 2 minute ∧ Digits 2 second

/-- No fraction, or one after a dot. -/
def FractionForm (fraction : List Char) : Prop :=
  fraction = [] ∨ ∃ count digits, fraction = '.' :: digits ∧ Digits count digits ∧ 0 < count

/-- A timestamp of UTC in RFC 3339. -/
def SenderForm (text : List Char) : Prop :=
  ∃ year monthDay clock fraction, text = year ++ monthDay ++ (clock ++ (fraction ++ utcOffset)) ∧
    YearForm year ∧ MonthDayForm monthDay ∧ ClockForm clock ∧ FractionForm fraction

theorem digits_pad (width n : ℕ) : Digits width (pad width n) :=
  ⟨fun _ hc => UtcFields.isDigit_of_mem_pad hc, length_pad width n⟩

theorem yearForm_yearText (year : ℤ) : YearForm (yearText year) := by
  rw [yearText]
  split
  · exact ⟨[], 4, pad 4 year.toNat, rfl, Or.inl rfl, digits_pad _ _, le_rfl⟩
  · refine ⟨[if year < 0 then '-' else '+'], _, _, rfl, ?_, digits_pad _ _, le_max_left _ _⟩
    split
    · exact Or.inr (Or.inr rfl)
    · exact Or.inr (Or.inl rfl)

theorem fractionForm_fractionText (nanos : ℕ) : FractionForm (fractionText nanos) := by
  rw [fractionText]
  split
  · exact Or.inl rfl
  · split
    · exact Or.inr ⟨3, _, rfl, digits_pad _ _, by omega⟩
    · split
      · exact Or.inr ⟨6, _, rfl, digits_pad _ _, by omega⟩
      · exact Or.inr ⟨9, _, rfl, digits_pad _ _, by omega⟩

/-- Every instant is written in this form. -/
theorem senderForm_rfc3339 (t : Instant) : SenderForm (rfc3339 t).toList := by
  rw [rfc3339, String.toList_ofList]
  exact ⟨_, _, _, _, rfl, yearForm_yearText _, ⟨_, _, rfl, digits_pad _ _, digits_pad _ _⟩,
    ⟨_, _, _, rfl, digits_pad _ _, digits_pad _ _, digits_pad _ _⟩,
    fractionForm_fractionText _⟩

theorem Digits.no_plus {count : ℕ} {cs : List Char} (h : Digits count cs) : '+' ∉ cs :=
  fun hmem => absurd (h.digits '+' hmem) (by decide)

theorem MonthDayForm.no_plus {monthDay : List Char} (h : MonthDayForm monthDay) :
    '+' ∉ monthDay := by
  obtain ⟨month, day, rfl, hmonth, hday⟩ := h
  simp [hmonth.no_plus, hday.no_plus]

theorem ClockForm.no_plus {clock : List Char} (h : ClockForm clock) : '+' ∉ clock := by
  obtain ⟨hour, minute, second, rfl, hhour, hminute, hsecond⟩ := h
  simp [hhour.no_plus, hminute.no_plus, hsecond.no_plus]

theorem FractionForm.no_plus {fraction : List Char} (h : FractionForm fraction) :
    '+' ∉ fraction := by
  obtain rfl | ⟨count, digits, rfl, hdigits, -⟩ := h
  · exact List.not_mem_nil
  · simp [hdigits.no_plus]

/-- Only the first character of a year may be a plus sign. -/
theorem YearForm.no_plus {year : List Char} (h : YearForm year) :
    ∃ c more, year = c :: more ∧ '+' ∉ more := by
  obtain ⟨sign, count, digits, rfl, hsign, hdigits, hlong⟩ := h
  obtain rfl | rfl | rfl := hsign
  · cases digits with
    | nil =>
      have hcount := hdigits.length
      rw [List.length_nil] at hcount
      omega
    | cons d more =>
      exact ⟨d, more, rfl, fun hmem => hdigits.no_plus (List.mem_cons_of_mem d hmem)⟩
  · exact ⟨'+', digits, rfl, hdigits.no_plus⟩
  · exact ⟨'-', digits, rfl, hdigits.no_plus⟩

/-- No plus sign follows the first character of a timestamp before its offset. -/
theorem SenderForm.ends {text : List Char} (h : SenderForm text) :
    ∃ c body, text = c :: (body ++ utcOffset) ∧ '+' ∉ body := by
  obtain ⟨year, monthDay, clock, fraction, rfl, hyear, hmonthDay, hclock, hfraction⟩ := h
  obtain ⟨c, more, rfl, hmore⟩ := hyear.no_plus
  refine ⟨c, more ++ monthDay ++ clock ++ fraction, by simp, ?_⟩
  simp [hmore, hmonthDay.no_plus, hclock.no_plus, hfraction.no_plus]

/-- A list is cut before an element that is not in the first part at one place. -/
theorem append_cons_inj_of_not_mem {α : Type} {x : α} {before before' after after' : List α}
    (hbefore : x ∉ before) (hbefore' : x ∉ before')
    (h : before ++ x :: after = before' ++ x :: after') : before = before' ∧ after = after' := by
  induction before generalizing before' with
  | nil =>
    cases before' with
    | nil => exact ⟨rfl, (List.cons.inj h).2⟩
    | cons y before' =>
      exact absurd ((List.cons.inj h).1 ▸ List.mem_cons_self) hbefore'
  | cons y before ih =>
    cases before' with
    | nil => exact absurd ((List.cons.inj h).1 ▸ List.mem_cons_self) hbefore
    | cons y' before' =>
      obtain ⟨rfl, hrest⟩ := List.cons.inj h
      obtain ⟨rfl, rfl⟩ := ih (fun hmem => hbefore (List.mem_cons_of_mem _ hmem))
        (fun hmem => hbefore' (List.mem_cons_of_mem _ hmem)) hrest
      exact ⟨rfl, rfl⟩

/-- A timestamp is read off any text that begins with it. -/
theorem SenderForm.cancel {text text' rest rest' : List Char} (h : SenderForm text)
    (h' : SenderForm text') (heq : text ++ rest = text' ++ rest') :
    text = text' ∧ rest = rest' := by
  obtain ⟨c, body, rfl, hbody⟩ := h.ends
  obtain ⟨c', body', rfl, hbody'⟩ := h'.ends
  rw [List.cons_append, List.cons_append, List.append_assoc, List.append_assoc] at heq
  have hoffset : utcOffset = '+' :: "00:00".toList := by decide
  obtain ⟨rfl, hafter⟩ := List.cons.inj heq
  rw [hoffset, List.cons_append, List.cons_append] at hafter
  obtain ⟨rfl, hrest⟩ := append_cons_inj_of_not_mem hbody hbody' hafter
  exact ⟨rfl, List.append_cancel_left hrest⟩

/-! ## Signed inputs -/

/-- What is signed begins with the characters of the timestamp and of the id. -/
theorem signedInput_eq (timestamp deliveryId : String) (body : List UInt8) :
    signedInput timestamp deliveryId body =
      utf8 (timestamp.toList ++ '.' :: (deliveryId.toList ++ ['.'])) ++ body := by
  rw [utf8_append, utf8_cons, utf8_append, utf8_toList, utf8_toList, signedInput]
  simp only [List.append_assoc]
  rfl

/-- The timestamp is read off by its form, the id by its length. -/
theorem signedInput_inj {timestamp timestamp' deliveryId deliveryId' : String}
    {body body' : List UInt8} (ht : SenderForm timestamp.toList)
    (ht' : SenderForm timestamp'.toList) (hid : deliveryId.length = deliveryId'.length)
    (h : signedInput timestamp deliveryId body = signedInput timestamp' deliveryId' body') :
    timestamp = timestamp' ∧ deliveryId = deliveryId' ∧ body = body' := by
  rw [signedInput_eq, signedInput_eq] at h
  have hchars := congrArg Lossy.decode h
  simp only [Lossy.decode_utf8_append, List.append_assoc, List.cons_append] at hchars
  obtain ⟨htext, hrest⟩ := ht.cancel ht' hchars
  obtain ⟨hids, -⟩ := List.append_inj (List.cons.inj hrest).2 hid
  rw [htext, hids] at h
  exact ⟨String.toList_inj.mp htext, String.toList_inj.mp hids, List.append_cancel_left h⟩

/-- Bytes are told apart by their hexadecimal digits. -/
theorem hexEncode_injective : Function.Injective hexEncode := by
  have hdigits : ∀ m < 16, ∀ n < 16, Nat.digitChar m = Nat.digitChar n → m = n := by decide
  intro bs
  induction bs with
  | nil =>
    intro bs' h
    cases bs' with
    | nil => rfl
    | cons => cases h
  | cons b bs ih =>
    intro bs' h
    cases bs' with
    | nil => cases h
    | cons b' bs' =>
      have hb := b.toNat_lt
      have hb' := b'.toNat_lt
      obtain ⟨hhigh, h⟩ := List.cons.inj h
      obtain ⟨hlow, hrest⟩ := List.cons.inj h
      have hdiv := hdigits _ (by omega) _ (by omega) hhigh
      have hmod := hdigits _ (by omega) _ (by omega) hlow
      rw [ih hrest, UInt8.toNat_inj.mp (by omega : b.toNat = b'.toNat)]

/-- Equal signatures are MACs of one value. -/
theorem hmac_of_signature {lib : WebhookLibrary} {secret timestamp timestamp' deliveryId
    deliveryId' : String} {body body' : List UInt8}
    (h : computeDeliverySignature lib secret timestamp deliveryId body =
      computeDeliverySignature lib secret timestamp' deliveryId' body') :
    lib.hmacSha256 (bytes secret) (signedInput timestamp deliveryId body) =
      lib.hmacSha256 (bytes secret) (signedInput timestamp' deliveryId' body') := by
  rw [computeDeliverySignature, computeDeliverySignature, String.append_right_inj] at h
  exact hexEncode_injective (String.ofList_injective h)

/-- Everything that is minted has a timestamp of this form and is signed for what it carries. -/
theorem mintDelivery_signed {lib : WebhookLibrary} {secret eventName deliveryId : String}
    {data : Value} {now : Instant} {delivery : Delivery}
    (h : mintDelivery lib secret eventName data now deliveryId = .ok delivery) :
    SenderForm delivery.sentAt.toList ∧ delivery.deliveryId = deliveryId ∧
      delivery.signature = computeDeliverySignature lib secret delivery.sentAt
        delivery.deliveryId delivery.body := by
  obtain ⟨_, -, h⟩ := ok_of_bind h
  obtain ⟨body, -, h⟩ := ok_of_bind h
  cases h
  exact ⟨senderForm_rfc3339 now, rfl, rfl⟩

/-- **The signing input is unambiguous**: it is the same for two deliveries only if all they sign
is, and their signatures are the same only then or where the MAC takes their inputs alike though
they differ. -/
theorem signing_input_unambiguous {timestamp timestamp' deliveryId deliveryId' : String}
    {body body' : List UInt8} (ht : SenderForm timestamp.toList)
    (ht' : SenderForm timestamp'.toList) (hid : deliveryId.length = 26)
    (hid' : deliveryId'.length = 26) :
    (signedInput timestamp deliveryId body = signedInput timestamp' deliveryId' body' →
      timestamp = timestamp' ∧ deliveryId = deliveryId' ∧ body = body') ∧
    ∀ (lib : WebhookLibrary) (secret : String),
      computeDeliverySignature lib secret timestamp deliveryId body =
          computeDeliverySignature lib secret timestamp' deliveryId' body' →
        (timestamp = timestamp' ∧ deliveryId = deliveryId' ∧ body = body') ∨
          signedInput timestamp deliveryId body ≠ signedInput timestamp' deliveryId' body' ∧
            lib.hmacSha256 (bytes secret) (signedInput timestamp deliveryId body) =
              lib.hmacSha256 (bytes secret) (signedInput timestamp' deliveryId' body') := by
  have hinput : signedInput timestamp deliveryId body = signedInput timestamp' deliveryId' body' →
      timestamp = timestamp' ∧ deliveryId = deliveryId' ∧ body = body' :=
    signedInput_inj ht ht' (hid.trans hid'.symm)
  refine ⟨hinput, fun lib secret hsignature => ?_⟩
  by_cases hsame : signedInput timestamp deliveryId body = signedInput timestamp' deliveryId' body'
  · exact Or.inl (hinput hsame)
  · exact Or.inr ⟨hsame, hmac_of_signature hsignature⟩

/-- Two deliveries of one second, one with a fraction of it, whose pieces are cut differently. -/
theorem signing_input_unambiguous_second :
    signedInput (rfc3339 1709210096000000000) "01HQV3Z8K5J7M2N4P6R8T0W1X3" (bytes "123.\x7b\x7d") ≠
      signedInput (rfc3339 1709210096123000000) "01HQV3Z8K5J7M2N4P6R8T0W1X3" (bytes "\x7b\x7d") := by
  intro h
  have hsame := ((signing_input_unambiguous (senderForm_rfc3339 _) (senderForm_rfc3339 _)
    (by decide) (by decide)).1 h).2.2
  exact absurd hsame (by decide)

end OidcExchange
