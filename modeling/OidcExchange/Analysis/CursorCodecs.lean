import OidcExchange.Adapters.TimestampReader
import OidcExchange.Analysis.ErrorDetails
import OidcExchange.Analysis.PagedListing
import OidcExchange.Program.Cursors

/-!
# Cursors are read as they were written

A cursor that a store hands out decodes to the position it was encoded from, whatever the
identifier and the moment, or the key. A text of a client is refused as the caller's fault, or it
decodes to a position that is encoded again and decodes to the same position.
-/

set_option autoImplicit false

namespace OidcExchange

open Storage Texts

namespace Cursors

/-! ## Readers -/

/-- Documents are built of tokens, with every member where it was written. -/
def memberBuilder : Json.Builder (List Char) Value :=
  { valueBuilder fun _ => none with
    Members := List (String × Value)
    noMembers := []
    member := fun done content v => done ++ [(String.ofList content, v)]
    object := .object }

/-- The JSON reader reads JSON, its reader of the two fields reads them wherever they are, each
once, and the reader of timestamps reads the text of fields that name a moment as that moment. -/
structure CursorLibrary.Documented (lib : CursorLibrary) : Prop where
  value : ∃ number, ∀ text,
    lib.valueFromSlice (utf8 text) = Json.parse (valueBuilder number) recursionLimit text
  wire : ∀ text v fields, Json.parse memberBuilder recursionLimit text = some v →
    OidcExchange.KeysetCursor.fieldsOfWire v = some fields →
      lib.wireFromSlice (utf8 text) = some fields
  timestamp : ∀ (f : UtcFields) (m : DateTime), f.Names m →
    lib.parse (String.ofList f.text) = some m

variable {lib : CursorLibrary}

/-! ## Tokens -/

theorem token_ne_empty (members : List (List Char × List Char)) : token members ≠ "" := by
  have hobject : Json.writeObject members ≠ [] := by
    cases members <;> exact List.cons_ne_nil _ _
  have hbytes : utf8 (Json.writeObject members) ≠ [] := by
    intro h
    have hback := Lossy.decode_utf8 (Json.writeObject members)
    rw [h] at hback
    exact hobject hback.symm
  intro h
  apply Base64Url.encode_ne_nil hbytes
  have hlist := congrArg String.toList h
  rwa [token, String.toList_ofList] at hlist

/-- The bytes of a token are those of the object. -/
theorem jsonBytes_token (members : List (List Char × List Char)) :
    jsonBytes (token members) = .ok (utf8 (Json.writeObject members)) := by
  rw [jsonBytes, if_neg (token_ne_empty members), token, String.toList_ofList,
    Base64Url.decode_encode]
  rfl

/-! ## The caller's fault -/

/-- The answer is as described, or the request was invalid. -/
def Closed {α : Type} (P : α → Prop) : Answer α → Prop
  | .ok a => P a
  | .error e => ∃ reason, e = .error (.invalidRequest reason)

theorem Closed.bind {α β : Type} {P : α → Prop} {Q : β → Prop} {x : Answer α}
    {f : α → Answer β} (hx : Closed P x) (hf : ∀ a, P a → Closed Q (f a)) :
    Closed Q (x >>= f) := by
  cases x with
  | ok a => exact hf a hx
  | error e => exact hx

theorem Closed.mono {α : Type} {P Q : α → Prop} {x : Answer α} (hx : Closed P x)
    (h : ∀ a, P a → Q a) : Closed Q x := by
  cases x with
  | ok a => exact h a hx
  | error e => exact hx

theorem closed_orNotAToken {α : Type} (o : Option α) :
    Closed (fun a => o = some a) (orNotAToken o) := by
  cases o with
  | none => exact ⟨_, rfl⟩
  | some a => exact rfl

theorem closed_jsonBytes (raw : String) : Closed (fun _ => True) (jsonBytes raw) := by
  unfold jsonBytes
  split
  · exact ⟨_, rfl⟩
  · cases Base64Url.decode raw.toList with
    | none => exact ⟨_, rfl⟩
    | some bytes => exact trivial

/-- What a position is encoded as decodes to it. -/
def RoundTrips {α : Type} (encode : α → Answer String) (decode : String → Answer α)
    (position : α) : Prop :=
  ∃ text, encode position = .ok text ∧ decode text = .ok position

/-! ## The keyset cursor -/

namespace KeysetCursor

/-- The two fields of a written cursor are read. -/
theorem wireFromSlice_wire (h : lib.Documented) (cursor : KeysetCursor) :
    lib.wireFromSlice (utf8 (Json.writeObject cursor.wire)) =
      some (cursor.createdAt.toRfc3339, cursor.id) := by
  refine h.wire _ _ _ (Json.parse_writeObject memberBuilder (by decide) _) ?_
  have hobject : memberBuilder.object
      (Json.buildMembers memberBuilder cursor.wire memberBuilder.noMembers) =
        .object [("c", .string (String.ofList cursor.createdAt.toRfc3339.toList)),
          ("i", .string (String.ofList cursor.id.toList))] := rfl
  rw [hobject, String.ofList_toList, String.ofList_toList]
  rfl

theorem decode_token (h : lib.Documented) {cursor : KeysetCursor} (hid : cursor.id ≠ "") :
    decode lib (token cursor.wire) = .ok cursor := by
  have hmoment : lib.parse cursor.createdAt.toRfc3339 = some cursor.createdAt :=
    h.timestamp _ _ cursor.createdAt.names
  simp only [decode, jsonBytes_token, wireFromSlice_wire h, orNotAToken, hmoment, bind, Except.bind,
    if_neg hid]
  rfl

theorem encode_eq (h : lib.Documented) {cursor : KeysetCursor} (hid : cursor.id ≠ "") :
    encode lib cursor = .ok (token cursor.wire) := by
  have hreread : reread lib cursor (token cursor.wire) = .ok (token cursor.wire) := by
    rw [reread, decode_token h hid]
    exact if_pos rfl
  simp only [encode, assertThat, hid, token_ne_empty, hreread, ne_eq, not_false_eq_true,
    decide_true, if_true, bind, Except.bind]

/-- **Every cursor with an identifier is read as it was written.** -/
theorem roundTrips (h : lib.Documented) {cursor : KeysetCursor} (hid : cursor.id ≠ "") :
    RoundTrips (encode lib) (decode lib) cursor :=
  ⟨_, encode_eq h hid, decode_token h hid⟩

/-- A decoded cursor has an identifier. -/
theorem closed_decode (lib : CursorLibrary) (raw : String) :
    Closed (fun cursor => cursor.id ≠ "") (decode lib raw) := by
  refine (closed_jsonBytes raw).bind fun bytes _ => ?_
  refine (closed_orNotAToken _).bind fun fields _ => ?_
  show Closed _ (if fields.2 = "" then _ else _)
  split
  · exact ⟨_, rfl⟩
  · rename_i hid
    exact (closed_orNotAToken _).bind fun createdAt _ => hid

end KeysetCursor

/-! ## The cursor of a scan -/

namespace ScanCursor

/-- The two members of a written cursor are read. -/
theorem valueFromSlice_wire (h : lib.Documented) (cursor : ScanCursor) :
    lib.valueFromSlice (utf8 (Json.writeObject cursor.wire)) =
      some (.object [("sk", .string cursor.sk), ("pk", .string cursor.pk)]) := by
  obtain ⟨number, hnumber⟩ := h.value
  have hobject : (valueBuilder number).object
      (Json.buildMembers (valueBuilder number) cursor.wire (valueBuilder number).noMembers) =
        .object [("sk", .string (String.ofList cursor.sk.toList)),
          ("pk", .string (String.ofList cursor.pk.toList))] := rfl
  rw [hnumber, Json.parse_writeObject _ (by decide), hobject, String.ofList_toList,
    String.ofList_toList]

/-- A cursor that can be handed out. -/
def Whole (cursor : ScanCursor) : Prop := cursor.pk ≠ "" ∧ cursor.sk ≠ ""

theorem decode_token (h : lib.Documented) {cursor : ScanCursor} (hwhole : cursor.Whole) :
    decode lib (token cursor.wire) = .ok cursor := by
  have hmember : ∀ {name text : String} {fields : List (String × Value)}, text ≠ "" →
      fields.lookup name = some (.string text) → present (.object fields) name = some text := by
    intro name text fields hne hlookup
    simp [present, hlookup, Value.asStr, hne]
  have hpk : present (.object [("sk", .string cursor.sk), ("pk", .string cursor.pk)]) "pk" =
      some cursor.pk := hmember hwhole.1 rfl
  have hsk : present (.object [("sk", .string cursor.sk), ("pk", .string cursor.pk)]) "sk" =
      some cursor.sk := hmember hwhole.2 rfl
  simp only [decode, jsonBytes_token, valueFromSlice_wire h, orNotAToken, hpk, hsk, bind,
    Except.bind]
  rfl

theorem encode_eq (h : lib.Documented) {cursor : ScanCursor} (hwhole : cursor.Whole) :
    encode lib cursor = .ok (token cursor.wire) := by
  rw [encode, reread, decode_token h hwhole]
  exact if_pos ⟨rfl, rfl⟩

theorem closed_decode (lib : CursorLibrary) (raw : String) :
    Closed Whole (decode lib raw) := by
  have hpresent : ∀ {parsed : Value} {name text : String}, present parsed name = some text →
      text ≠ "" := by
    intro parsed name text h
    unfold present at h
    split at h
    · simpa using (Option.filter_eq_some_iff.mp h).2
    · cases h
  refine (closed_jsonBytes raw).bind fun bytes _ => ?_
  refine (closed_orNotAToken _).bind fun parsed _ => ?_
  refine (closed_orNotAToken _).bind fun pk hpk => ?_
  exact (closed_orNotAToken _).bind fun sk hsk => ⟨hpresent hpk, hpresent hsk⟩

/-- A key that a scan of the table is evaluated up to: its two key attributes, strings that are not
empty, and nothing else. -/
def Evaluated (key : KeyMap) : Prop :=
  ∃ cursor : ScanCursor, cursor.Whole ∧ ∀ name, key.lookup name =
    if name = "pk" then some (.s cursor.pk) else if name = "sk" then some (.s cursor.sk) else none

/-- The key of a cursor. -/
def keyMap (cursor : ScanCursor) : KeyMap :=
  ((∅ : KeyMap).insert "pk" (.s cursor.pk)).insert "sk" (.s cursor.sk)

theorem toKeyMap_eq {cursor : ScanCursor} (hwhole : cursor.Whole) :
    toKeyMap cursor = .ok cursor.keyMap := by
  simp only [toKeyMap, assertThat, hwhole.1, hwhole.2, ne_eq, not_false_eq_true, decide_true,
    if_true, bind, Except.bind]
  rfl

theorem lookup_keyMap (cursor : ScanCursor) (name : String) :
    cursor.keyMap.lookup name =
      if name = "pk" then some (.s cursor.pk) else if name = "sk" then some (.s cursor.sk)
        else none := by
  rw [keyMap, Table.lookup_insert_ite, Table.lookup_insert_ite]
  by_cases hpk : name = "pk"
  · rw [hpk]
    rfl
  · rw [if_neg hpk, if_neg hpk]
    rfl

/-- The cursor of an evaluated key. -/
theorem nextCursor_eq (h : lib.Documented) {key : KeyMap} {cursor : ScanCursor}
    (hwhole : cursor.Whole) (hkey : ∀ name, key.lookup name =
      if name = "pk" then some (.s cursor.pk) else if name = "sk" then some (.s cursor.sk)
        else none) :
    nextCursor lib key = .ok (token cursor.wire) := by
  have hpk : getS key "pk" = .ok cursor.pk := by
    rw [getS, hkey]
    exact if_neg hwhole.1
  have hsk : getS key "sk" = .ok cursor.sk := by
    rw [getS, hkey]
    exact if_neg hwhole.2
  have hfull : key.entries.isEmpty = false := by
    have hlookup := hkey "pk"
    obtain ⟨entries, hentries⟩ := key
    cases entries with
    | nil => cases hlookup
    | cons entry entries => rfl
  simp only [nextCursor, fromKeyMap, assertThat, hfull, hpk, hsk, Bool.not_false, if_true, bind,
    Except.bind, pure, Except.pure]
  exact encode_eq h hwhole

theorem exclusiveStartKey_eq (h : lib.Documented) {cursor : ScanCursor} (hwhole : cursor.Whole) :
    exclusiveStartKey lib (token cursor.wire) = .ok cursor.keyMap := by
  simp only [exclusiveStartKey, decode_token h hwhole, bind, Except.bind]
  exact toKeyMap_eq hwhole

/-- **Every evaluated key is read as it was written.** -/
theorem roundTrips (h : lib.Documented) {key : KeyMap} (hkey : Evaluated key) :
    ∃ text key', nextCursor lib key = .ok text ∧ exclusiveStartKey lib text = .ok key' ∧
      ∀ name, key'.lookup name = key.lookup name := by
  obtain ⟨cursor, hwhole, hlookup⟩ := hkey
  refine ⟨_, _, nextCursor_eq h hwhole hlookup, exclusiveStartKey_eq h hwhole, fun name => ?_⟩
  rw [lookup_keyMap, hlookup]

/-- A text of a client is refused, or it is a key that is written and read again. -/
theorem closed_exclusiveStartKey (h : lib.Documented) (raw : String) :
    Closed (fun key => Evaluated key ∧
      RoundTrips (nextCursor lib) (exclusiveStartKey lib) key) (exclusiveStartKey lib raw) := by
  refine (closed_decode lib raw).bind fun cursor hwhole => ?_
  rw [toKeyMap_eq hwhole]
  exact ⟨⟨cursor, hwhole, lookup_keyMap cursor⟩, token cursor.wire,
    nextCursor_eq h hwhole (lookup_keyMap cursor), exclusiveStartKey_eq h hwhole⟩

end ScanCursor

/-! ## Readers as the packages have them -/

/-- The text of bytes that are one. -/
def textOf (bytes : List UInt8) : Option (List Char) :=
  if utf8 (Lossy.decode bytes) = bytes then some (Lossy.decode bytes) else none

theorem textOf_utf8 (text : List Char) : textOf (utf8 text) = some text := by
  rw [textOf, Lossy.decode_utf8, if_pos rfl]

/-- Only a leap second is longer than a second. -/
theorem nanosBound_of_valid {f : UtcFields} (hvalid : f.clock.Valid) :
    (f.nanos + if f.second = 60 then 1000000000 else 0) < 1000000000 ∨
      (f.nanos + if f.second = 60 then 1000000000 else 0) < 2000000000 ∧
        f.clock.secs % 60 = 59 := by
  have hnanos : f.nanos < 1000000000 := hvalid.nanos
  by_cases hleap : f.second = 60
  · rw [if_pos hleap]
    refine .inr ⟨by omega, ?_⟩
    simp only [UtcFields.secs, UtcFields.clock, hleap, secsPerDay]
    omega
  · rw [if_neg hleap]
    exact .inl hnanos

/-- The moment that fields name. -/
def dateTimeOf (f : UtcFields) : Option DateTime :=
  if h : f.clock.Valid ∧ f.second ≤ 60 ∧
      (minInstantSecs ≤ f.clock.secs ∧ f.clock.secs < endInstantSecs) then
    some {
      secs := f.clock.secs
      nanos := f.nanos + if f.second = 60 then 1000000000 else 0
      inRange := h.2.2
      nanosBound := nanosBound_of_valid h.1 }
  else none

/-- The packages as they are for texts without numbers, and for instants in the form they are
written in. -/
def plainLibrary : CursorLibrary where
  valueFromSlice bytes :=
    (textOf bytes).bind (Json.parse (valueBuilder fun _ => none) recursionLimit)
  wireFromSlice bytes :=
    ((textOf bytes).bind (Json.parse memberBuilder recursionLimit)).bind
      OidcExchange.KeysetCursor.fieldsOfWire
  parse text := (UtcFields.read text.toList).bind dateTimeOf

theorem fits_of_names {f : UtcFields} {m : DateTime} (h : f.Names m) : f.Fits := by
  have hclock := h.valid.fits
  have hsecond := h.second
  exact ⟨hclock.month, hclock.day, hclock.hour, hclock.minute, by omega, hclock.nanos⟩

theorem dateTimeOf_names {f : UtcFields} {m : DateTime} (h : f.Names m) : dateTimeOf f = some m := by
  have hrange := m.inRange
  rw [h.secs] at hrange
  rw [dateTimeOf, dif_pos ⟨h.valid, h.second, hrange⟩]
  congr 1
  exact DateTime.unique ⟨h.valid, h.second, rfl, rfl⟩ h

theorem plainLibrary_documented : plainLibrary.Documented where
  value := by
    refine ⟨fun _ => none, fun text => ?_⟩
    simp only [plainLibrary, textOf_utf8, Option.bind_some]
  wire := by
    intro text v fields hparse hfields
    simp only [plainLibrary, textOf_utf8, Option.bind_some, hparse, hfields]
  timestamp := by
    intro f m h
    simp only [plainLibrary, String.toList_ofList, UtcFields.read_text (fits_of_names h),
      Option.bind_some, dateTimeOf_names h]

/-! ## Every position and every text -/

/-- **Cursors are read as they were written, and other texts are refused**: a keyset cursor with an
identifier and an evaluated key decode from what they are encoded as; a text of a client decodes
to a position that is encoded again and decodes to itself, or the request was invalid. -/
theorem cursors_round_trip (lib : CursorLibrary) (h : lib.Documented) :
    (∀ cursor : KeysetCursor, cursor.id ≠ "" →
      RoundTrips (KeysetCursor.encode lib) (KeysetCursor.decode lib) cursor) ∧
    (∀ key : KeyMap, ScanCursor.Evaluated key →
      ∃ text key', ScanCursor.nextCursor lib key = .ok text ∧
        ScanCursor.exclusiveStartKey lib text = .ok key' ∧
          ∀ name, key'.lookup name = key.lookup name) ∧
    ∀ raw,
      Closed (RoundTrips (KeysetCursor.encode lib) (KeysetCursor.decode lib))
        (KeysetCursor.decode lib raw) ∧
      Closed (RoundTrips (ScanCursor.encode lib) (ScanCursor.decode lib))
        (ScanCursor.decode lib raw) ∧
      Closed (fun key => ScanCursor.Evaluated key ∧
          RoundTrips (ScanCursor.nextCursor lib) (ScanCursor.exclusiveStartKey lib) key)
        (ScanCursor.exclusiveStartKey lib raw) := by
  refine ⟨fun cursor hid => KeysetCursor.roundTrips h hid,
    fun key hkey => ScanCursor.roundTrips h hkey, fun raw => ⟨?_, ?_, ?_⟩⟩
  · exact (KeysetCursor.closed_decode lib raw).mono fun cursor hid => KeysetCursor.roundTrips h hid
  · exact (ScanCursor.closed_decode lib raw).mono fun cursor hwhole =>
      ⟨_, ScanCursor.encode_eq h hwhole, ScanCursor.decode_token h hwhole⟩
  · exact ScanCursor.closed_exclusiveStartKey h raw

/-- A cursor of a leap second whose identifier has quotes and separators in it. -/
def leapCursor : KeysetCursor where
  createdAt :=
    { secs := 1483228799
      nanos := 1500000000
      inRange := by decide
      nanosBound := by decide }
  id := "usr_\"1\"|,:\n"

theorem cursors_round_trip_leapSecond :
    RoundTrips (KeysetCursor.encode plainLibrary) (KeysetCursor.decode plainLibrary) leapCursor ∧
    ScanCursor.nextCursor plainLibrary (ScanCursor.keyMap ⟨"USER#usr_1", "PROFILE"⟩) ≠
      .error .panic ∧
    Closed (RoundTrips (KeysetCursor.encode plainLibrary) (KeysetCursor.decode plainLibrary))
      (KeysetCursor.decode plainLibrary "not-base64!!") := by
  obtain ⟨hkeyset, hscan, htexts⟩ := cursors_round_trip plainLibrary plainLibrary_documented
  refine ⟨hkeyset leapCursor (by decide), ?_, (htexts "not-base64!!").1⟩
  obtain ⟨text, key, hnext, -⟩ := hscan (ScanCursor.keyMap ⟨"USER#usr_1", "PROFILE"⟩)
    ⟨_, ⟨by decide, by decide⟩, ScanCursor.lookup_keyMap _⟩
  rw [hnext]
  exact nofun

/-- A cursor without an identifier ends the call that hands it out. -/
theorem empty_id_panics : plainLibrary.Documented ∧
    KeysetCursor.encode plainLibrary { leapCursor with id := "" } = .error .panic ∧
    ¬RoundTrips (KeysetCursor.encode plainLibrary) (KeysetCursor.decode plainLibrary)
      { leapCursor with id := "" } := by
  have hpanic : KeysetCursor.encode plainLibrary { leapCursor with id := "" } = .error .panic := rfl
  refine ⟨plainLibrary_documented, hpanic, ?_⟩
  rintro ⟨text, hencode, -⟩
  rw [hpanic] at hencode
  cases hencode

/-! ## The cursors of the user listing -/

/-- The members of an object that are strings. -/
def stringMembers : Value → List (List Char × List Char)
  | .object fields => fields.filterMap fun e => e.2.asStr.map fun text => (e.1.toList, text.toList)
  | _ => []

/-- The codec of the user listing; its instants have no leap seconds. -/
def CursorLibrary.listingCodec (lib : CursorLibrary) : CursorCodec (List UInt8) where
  wire :=
    { asBytes := bytes
      toVec := fun v => utf8 (Json.writeObject (stringMembers v))
      fromSlice := fun bs =>
        (lib.wireFromSlice bs).map fun r => .object [("c", .string r.1), ("i", .string r.2)]
      encode := fun bs => String.ofList (Base64Url.encode bs)
      decode := fun text => Base64Url.decode text.toList }
  parse text := (lib.parse text).bind DateTime.instant?

section Listing

variable {t : ℤ} (ht : Representable t) (id : String)

/-- An instant and an identifier as a cursor. -/
def cursorAt : KeysetCursor := ⟨.ofInstant t ht, id⟩

theorem stringMembers_toWire :
    stringMembers (OidcExchange.KeysetCursor.toWire ⟨t, id⟩) = (cursorAt ht id).wire := by
  rw [KeysetCursor.wire, cursorAt, DateTime.toRfc3339_ofInstant]
  rfl

variable {ht id}

/-- The listing reads its cursors as they were written. -/
theorem CursorLibrary.Documented.carries (h : lib.Documented) (ht : Representable t) :
    lib.listingCodec.Carries ⟨t, id⟩ := by
  have hmembers := stringMembers_toWire ht id
  have hmoment : lib.parse (rfc3339 t) = some (.ofInstant t ht) := by
    rw [← DateTime.toRfc3339_ofInstant ht]
    exact h.timestamp _ _ (DateTime.names _)
  have hwire := KeysetCursor.wireFromSlice_wire h (cursorAt ht id)
  constructor
  · simp only [CursorLibrary.listingCodec, hmembers]
    exact token_ne_empty _
  · simp only [CursorLibrary.listingCodec, String.toList_ofList, Base64Url.decode_encode]
  · simp only [CursorLibrary.listingCodec, hmembers, hwire]
    rw [cursorAt, DateTime.toRfc3339_ofInstant]
    rfl
  · simp only [CursorLibrary.listingCodec, hmoment]
    exact DateTime.instant?_ofInstant ht

/-- What is handed out is the cursor's text. -/
theorem text_of_encode {Bytes : Type} {codec : CursorCodec Bytes}
    {cursor : OidcExchange.KeysetCursor} {text : String}
    (h : OidcExchange.KeysetCursor.encode codec cursor = .ok text) :
    text = codec.wire.encode (codec.wire.toVec cursor.toWire) := by
  simp only [OidcExchange.KeysetCursor.encode] at h
  split at h
  · cases h
  · split at h
    · cases h
    · split at h
      · split at h
        · exact (Except.ok.inj h).symm
        · cases h
      · cases h

/-- The listing hands out the same text. -/
theorem CursorLibrary.Documented.encode_listingCodec (h : lib.Documented) (hid : id ≠ "") :
    OidcExchange.KeysetCursor.encode lib.listingCodec ⟨t, id⟩ =
      KeysetCursor.encode lib (cursorAt ht id) := by
  obtain ⟨text, hencode, -⟩ := exists_encode (h.carries ht) hid
  have hcursor : KeysetCursor.encode lib (cursorAt ht id) = .ok (token (cursorAt ht id).wire) :=
    KeysetCursor.encode_eq h hid
  have htext := text_of_encode hencode
  simp only [CursorLibrary.listingCodec, stringMembers_toWire ht id] at htext
  rw [hencode, hcursor, htext]
  rfl

end Listing

end Cursors

end OidcExchange
