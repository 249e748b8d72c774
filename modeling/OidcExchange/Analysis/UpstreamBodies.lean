import OidcExchange.Program.Transport
import OidcExchange.Texts.Segments

/-!
# When collecting a response panics

The body of a success is collected byte for byte or refused. That of a failure is cut at the
ceiling and made a text, in which bytes that are no character take three; if it is then beyond the
ceiling, an assertion fails.
-/

set_option autoImplicit false

namespace OidcExchange

open Texts

/-- All bytes that arrive. -/
def UpstreamResponse.arrived (response : UpstreamResponse) : List UInt8 := response.chunks.flatten

/-- The connection breaks before more bytes arrive than are kept. -/
def UpstreamResponse.BreaksOff (response : UpstreamResponse) : Prop :=
  response.broken.isSome ∧ response.arrived.length ≤ maxUpstreamBodyBytes

/-- The bytes of a failure that are kept are a text within the ceiling, if each segment that is no
character takes three bytes. -/
def UpstreamResponse.FitsAsText (response : UpstreamResponse) : Prop :=
  Lossy.textLength (response.arrived.take maxUpstreamBodyBytes) ≤ maxUpstreamBodyBytes

/-! ## Failures -/

variable {provider url : String} {broken : Option String}

/-- What is buffered of a failure: all that arrives, cut at the ceiling. -/
theorem bufferUpToCeiling_eq (chunks : List (List UInt8)) {buffered : List UInt8}
    (hbuffered : buffered.length ≤ maxUpstreamBodyBytes) :
    bufferUpToCeiling provider broken buffered chunks =
      if maxUpstreamBodyBytes < (buffered ++ chunks.flatten).length then
        .ok ((buffered ++ chunks.flatten).take maxUpstreamBodyBytes)
      else match broken with
        | none => .ok (buffered ++ chunks.flatten)
        | some e => .error (.error (.providerError provider
            ("failed while reading upstream response body: " ++ e))) := by
  induction chunks generalizing buffered with
  | nil =>
    rw [List.flatten_nil, List.append_nil, if_neg (Nat.not_lt.mpr hbuffered)]
    rfl
  | cons chunk rest ih =>
    rw [bufferUpToCeiling, List.flatten_cons, ← List.append_assoc]
    by_cases hover : maxUpstreamBodyBytes < buffered.length + chunk.length
    · have hwhole : maxUpstreamBodyBytes < (buffered ++ chunk ++ rest.flatten).length := by
        rw [List.length_append, List.length_append]
        exact Nat.lt_of_lt_of_le hover (Nat.le_add_right _ _)
      have hcut : maxUpstreamBodyBytes ≤ (buffered ++ chunk).length := by
        rw [List.length_append]
        exact Nat.le_of_lt hover
      have hhead : maxUpstreamBodyBytes - buffered.length ≤ chunk.length := by omega
      rw [if_pos hover, if_pos hwhole, List.take_append_of_le_length hcut, List.take_append,
        List.take_of_length_le hbuffered, subUsize, if_pos hbuffered]
      change chunkHead chunk (maxUpstreamBodyBytes - buffered.length) >>= _ = _
      rw [chunkHead, if_pos hhead]
      rfl
    · rw [if_neg hover, ih]
      rw [List.length_append]
      exact Nat.le_of_not_lt hover

/-- What is read of a failure is all that arrives, cut at the ceiling. -/
theorem readBounded_eq {response : UpstreamResponse} (hprovider : provider ≠ "") :
    readBounded provider response =
      if maxUpstreamBodyBytes < response.arrived.length then
        .ok (String.ofList (Lossy.decode (response.arrived.take maxUpstreamBodyBytes)))
      else match response.broken with
        | none => .ok (String.ofList (Lossy.decode response.arrived))
        | some e => .error (.error (.providerError provider
            ("failed while reading upstream response body: " ++ e))) := by
  have hnamed : provider.isEmpty = false := by rwa [String.isEmpty_eq_false_iff]
  have hkept : (response.arrived.take maxUpstreamBodyBytes).length ≤ maxUpstreamBodyBytes := by
    rw [List.length_take]
    exact Nat.min_le_left _ _
  rw [readBounded, hnamed]
  change bufferUpToCeiling provider response.broken [] response.chunks >>= _ = _
  rw [bufferUpToCeiling_eq response.chunks (Nat.zero_le _), List.nil_append]
  by_cases hover : maxUpstreamBodyBytes < response.arrived.length
  · rw [if_pos hover]
    have hover' : maxUpstreamBodyBytes < response.chunks.flatten.length := hover
    rw [if_pos hover']
    change assertThat (decide ((response.arrived.take maxUpstreamBodyBytes).length ≤
      maxUpstreamBodyBytes)) >>= _ = _
    rw [decide_eq_true hkept]
    rfl
  · rw [if_neg hover]
    have hover' : ¬maxUpstreamBodyBytes < response.chunks.flatten.length := hover
    rw [if_neg hover']
    cases response.broken with
    | none =>
      change assertThat (decide (response.arrived.length ≤ maxUpstreamBodyBytes)) >>= _ = _
      rw [decide_eq_true (Nat.le_of_not_lt hover)]
      rfl
    | some e => rfl

theorem collect_of_ok {response : UpstreamResponse} {bs : List UInt8}
    (h : readBody provider url response = .ok bs) :
    collect provider url response =
      if bounded : bs.length ≤ maxUpstreamBodyBytes then .ok ⟨response.status, bs, bounded⟩
      else .error .panic := by
  rw [collect, h]
  rfl

theorem collect_of_error {response : UpstreamResponse} {fault : Fault Error}
    (h : readBody provider url response = .error fault) :
    collect provider url response = .error fault := by
  rw [collect, h]
  rfl

/-- The assertion holds exactly if the bytes are within the ceiling. -/
theorem collect_ne_panic_of_ok {response : UpstreamResponse} {bs : List UInt8}
    (h : readBody provider url response = .ok bs) :
    collect provider url response ≠ .error .panic ↔ bs.length ≤ maxUpstreamBodyBytes := by
  rw [collect_of_ok h]
  by_cases hbounded : bs.length ≤ maxUpstreamBodyBytes
  · rw [dif_pos hbounded]
    exact ⟨fun _ => hbounded, fun _ => nofun⟩
  · rw [dif_neg hbounded]
    exact ⟨fun h => absurd rfl h, fun h => absurd h hbounded⟩

theorem length_bytes_decode (bs : List UInt8) :
    (bytes (String.ofList (Lossy.decode bs))).length = Lossy.textLength bs := by
  rw [bytes_ofList, Lossy.length_utf8_decode]

theorem readBody_failure {response : UpstreamResponse}
    (hfailure : response.status.isSuccess = false) :
    readBody provider url response = bytes <$> readBounded provider response := by
  rw [readBody, hfailure]
  rfl

variable (provider url) in
/-- Collecting a failure panics exactly if what is kept is too long a text, or the provider has no
name. -/
theorem collect_failure_ne_panic_iff {response : UpstreamResponse}
    (hfailure : response.status.isSuccess = false) :
    collect provider url response ≠ .error .panic ↔
      provider ≠ "" ∧ (response.BreaksOff ∨ response.FitsAsText) := by
  have hread : readBody provider url response = bytes <$> readBounded provider response :=
    readBody_failure hfailure
  by_cases hprovider : provider = ""
  · subst hprovider
    rw [collect_of_error hread]
    exact ⟨fun h => absurd rfl h, fun h => absurd rfl h.1⟩
  rw [readBounded_eq hprovider] at hread
  rw [and_iff_right hprovider]
  by_cases hover : maxUpstreamBodyBytes < response.arrived.length
  · rw [if_pos hover] at hread
    rw [collect_ne_panic_of_ok hread, length_bytes_decode]
    exact ⟨Or.inr, fun h => h.resolve_left fun hbreaks => absurd hbreaks.2 (Nat.not_le.mpr hover)⟩
  · have hle : response.arrived.length ≤ maxUpstreamBodyBytes := Nat.le_of_not_lt hover
    rw [if_neg hover] at hread
    cases hbroken : response.broken with
    | some e =>
      rw [hbroken] at hread
      rw [collect_of_error hread]
      exact ⟨fun _ => Or.inl ⟨by rw [hbroken]; rfl, hle⟩, fun _ => nofun⟩
    | none =>
      have hkept : response.arrived.take maxUpstreamBodyBytes = response.arrived :=
        List.take_of_length_le hle
      rw [hbroken] at hread
      rw [collect_ne_panic_of_ok hread, length_bytes_decode, UpstreamResponse.FitsAsText, hkept]
      refine ⟨Or.inr, fun h => h.resolve_left fun hbreaks => ?_⟩
      have hsome := hbreaks.1
      rw [hbroken] at hsome
      cases hsome

/-! ## Successes -/

theorem bufferBelowCeiling_eq (chunks : List (List UInt8)) {buffer : List UInt8}
    (hbuffer : buffer.length ≤ maxUpstreamBodyBytes) :
    bufferBelowCeiling broken buffer chunks =
      if maxUpstreamBodyBytes < (buffer ++ chunks.flatten).length then
        .error (.error (.overLimit maxUpstreamBodyBytes))
      else match broken with
        | none => .ok (buffer ++ chunks.flatten)
        | some e => .error (.error (.network e)) := by
  induction chunks generalizing buffer with
  | nil =>
    rw [List.flatten_nil, List.append_nil, if_neg (Nat.not_lt.mpr hbuffer)]
    rfl
  | cons chunk rest ih =>
    rw [bufferBelowCeiling, List.flatten_cons, ← List.append_assoc]
    by_cases hover : maxUpstreamBodyBytes < buffer.length + chunk.length
    · rw [if_pos hover, if_pos]
      rw [List.length_append, List.length_append]
      exact Nat.lt_of_lt_of_le hover (Nat.le_add_right _ _)
    · rw [if_neg hover, ih]
      rw [List.length_append]
      exact Nat.le_of_not_lt hover

theorem readBody_success {response : UpstreamResponse}
    (hsuccess : response.status.isSuccess = true) :
    readBody provider url response =
      if declaresOverLimit response ∨ maxUpstreamBodyBytes < response.arrived.length then
        .error (bodyError provider url (.error (.overLimit maxUpstreamBodyBytes)))
      else match response.broken with
        | none => .ok response.arrived
        | some e => .error (bodyError provider url (.error (.network e))) := by
  rw [readBody, if_pos hsuccess, readBoundedBytes]
  by_cases hdeclared : declaresOverLimit response = true
  · rw [if_pos hdeclared, if_pos (Or.inl hdeclared)]
    rfl
  rw [if_neg hdeclared, bufferBelowCeiling_eq response.chunks (Nat.zero_le _), List.nil_append]
  by_cases hover : maxUpstreamBodyBytes < response.arrived.length
  · have hover' : maxUpstreamBodyBytes < response.chunks.flatten.length := hover
    rw [if_pos hover', if_pos (Or.inr hover)]
    rfl
  · have hover' : ¬maxUpstreamBodyBytes < response.chunks.flatten.length := hover
    rw [if_neg hover', if_neg (not_or.mpr ⟨hdeclared, hover⟩)]
    cases response.broken with
    | some e => rfl
    | none =>
      change Except.mapError _ (assertThat (decide (response.arrived.length ≤
        maxUpstreamBodyBytes)) >>= _) = _
      rw [decide_eq_true (Nat.le_of_not_lt hover)]
      rfl

variable (provider url) in
/-- A success is collected byte for byte, or not at all. -/
theorem collect_success {response : UpstreamResponse} (hsuccess : response.status.isSuccess = true) :
    collect provider url response ≠ .error .panic ∧
      ∀ body, collect provider url response = .ok body ↔
        body.status = response.status ∧ body.bytes = response.arrived ∧
          response.broken = none ∧ declaresOverLimit response = false := by
  have hread : readBody provider url response = _ := readBody_success hsuccess
  by_cases hlimit : declaresOverLimit response ∨ maxUpstreamBodyBytes < response.arrived.length
  · rw [if_pos hlimit] at hread
    rw [collect_of_error hread]
    refine ⟨nofun, fun body => ⟨nofun, ?_⟩⟩
    rintro ⟨-, hbytes, -, hdeclared⟩
    rw [hdeclared, ← hbytes] at hlimit
    exact absurd (hlimit.resolve_left nofun) (Nat.not_lt.mpr body.bounded)
  · obtain ⟨hdeclared, hover⟩ := not_or.mp hlimit
    rw [if_neg hlimit] at hread
    cases hbroken : response.broken with
    | some e =>
      rw [hbroken] at hread
      rw [collect_of_error hread]
      exact ⟨nofun, fun body => ⟨nofun, fun h => by cases h.2.2.1⟩⟩
    | none =>
      rw [hbroken] at hread
      rw [collect_of_ok hread, dif_pos (Nat.le_of_not_lt hover)]
      refine ⟨nofun, fun body => ⟨?_, ?_⟩⟩
      · rintro ⟨⟩
        exact ⟨rfl, rfl, rfl, eq_false_of_ne_true hdeclared⟩
      · rintro ⟨hstatus, hbytes, -, -⟩
        obtain ⟨status, bs, bounded⟩ := body
        cases hstatus
        cases hbytes
        rfl

/-- Reading a body panics or blames the provider. -/
theorem readBody_error {response : UpstreamResponse} {fault : Fault Error}
    (h : readBody provider url response = .error fault) :
    fault = .panic ∨ ∃ detail, fault = .error (.providerError provider detail) := by
  cases hstatus : response.status.isSuccess with
  | true =>
    rw [readBody_success hstatus] at h
    by_cases hlimit : declaresOverLimit response ∨ maxUpstreamBodyBytes < response.arrived.length
    · rw [if_pos hlimit] at h
      cases h
      exact Or.inr ⟨_, rfl⟩
    · rw [if_neg hlimit] at h
      cases hbroken : response.broken with
      | none =>
        rw [hbroken] at h
        cases h
      | some e =>
        rw [hbroken] at h
        cases h
        exact Or.inr ⟨_, rfl⟩
  | false =>
    rw [readBody_failure hstatus] at h
    by_cases hprovider : provider = ""
    · subst hprovider
      cases h
      exact Or.inl rfl
    rw [readBounded_eq hprovider] at h
    by_cases hover : maxUpstreamBodyBytes < response.arrived.length
    · rw [if_pos hover] at h
      cases h
    · rw [if_neg hover] at h
      cases hbroken : response.broken with
      | none =>
        rw [hbroken] at h
        cases h
      | some e =>
        rw [hbroken] at h
        cases h
        exact Or.inr ⟨_, rfl⟩

/-- Unless collecting panics, it blames the provider or succeeds. -/
theorem collect_error {response : UpstreamResponse} {fault : Fault Error}
    (h : collect provider url response = .error fault) :
    fault = .panic ∨ ∃ detail, fault = .error (.providerError provider detail) := by
  cases hread : readBody provider url response with
  | error e =>
    rw [collect_of_error hread] at h
    cases h
    exact readBody_error hread
  | ok bs =>
    rw [collect_of_ok hread] at h
    by_cases hbounded : bs.length ≤ maxUpstreamBodyBytes
    · rw [dif_pos hbounded] at h
      cases h
    · rw [dif_neg hbounded] at h
      cases h
      exact Or.inl rfl

/-- What is claimed of a response: nothing panics, all that is refused is blamed on the provider,
a success is collected byte for byte, and whatever is collected is within the ceiling. -/
structure CollectedSafely (provider url : String) (response : UpstreamResponse) : Prop where
  safe : collect provider url response ≠ .error .panic
  refuses : ∀ fault, collect provider url response = .error fault →
    ∃ detail, fault = .error (.providerError provider detail)
  success : response.status.isSuccess = true → ∀ body,
    collect provider url response = .ok body → body.bytes = response.arrived
  bounded : ∀ body, collect provider url response = .ok body →
    body.bytes.length ≤ maxUpstreamBodyBytes

/-- Only a panic is unsafe. -/
theorem collectedSafely_iff {response : UpstreamResponse} :
    CollectedSafely provider url response ↔ collect provider url response ≠ .error .panic := by
  refine ⟨CollectedSafely.safe, fun hsafe => ⟨hsafe, fun fault h => ?_, fun hsuccess body h => ?_,
    fun body _ => body.bounded⟩⟩
  · refine (collect_error h).resolve_left fun hpanic => hsafe ?_
    rw [h, hpanic]
  · exact (((collect_success provider url hsuccess).2 body).mp h).2.1

/-- **Collecting is safe exactly for these responses**: successes, and failures of a named
provider whose kept bytes are a text within the ceiling or whose connection breaks before. -/
theorem upstream_body_collected_iff (provider url : String) (response : UpstreamResponse) :
    CollectedSafely provider url response ↔ response.status.isSuccess = true ∨
      provider ≠ "" ∧ (response.BreaksOff ∨ response.FitsAsText) := by
  rw [collectedSafely_iff]
  cases hstatus : response.status.isSuccess with
  | true =>
    exact ⟨fun _ => Or.inl rfl, fun _ => (collect_success provider url hstatus).1⟩
  | false =>
    rw [or_iff_right nofun]
    exact collect_failure_ne_panic_iff provider url hstatus

/-- Every byte that begins no character takes three. -/
theorem textLength_replicate (n : ℕ) : Lossy.textLength (List.replicate n 0xFF) = 3 * n := by
  rw [← Lossy.length_utf8_decode]
  induction n with
  | zero => rfl
  | succ n ih =>
    have hdecode : Lossy.decode (List.replicate (n + 1) 0xFF) =
        Lossy.replacement :: Lossy.decode (List.replicate n 0xFF) := rfl
    rw [hdecode, utf8_cons, List.length_append, ih, Lossy.length_replacement]
    omega

/-- A failure of as many bytes as the ceiling allows, none of which is a character. -/
def unreadableFailure : UpstreamResponse where
  status := ⟨500, by decide⟩
  contentLength := none
  chunks := [List.replicate 65536 0xFF]
  broken := none

/-- Collecting that failure panics. -/
theorem unreadable_failure_panics : ¬CollectedSafely "google" "/token" unreadableFailure := by
  rw [collectedSafely_iff, collect_failure_ne_panic_iff "google" "/token" rfl]
  rintro ⟨-, hbreaks | hfits⟩
  · exact absurd hbreaks.1 nofun
  · have hkept : unreadableFailure.arrived.take maxUpstreamBodyBytes =
        List.replicate 65536 0xFF := by
      have harrived : unreadableFailure.arrived = List.replicate 65536 0xFF := List.append_nil _
      rw [harrived, List.take_of_length_le]
      rw [List.length_replicate]
      exact Nat.le_refl _
    rw [UpstreamResponse.FitsAsText, hkept, textLength_replicate] at hfits
    exact absurd hfits (by decide)

end OidcExchange
