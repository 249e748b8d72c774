import OidcExchange.Adapters.Adapter
import OidcExchange.Adapters.Timestamps
import OidcExchange.Texts.Lossy

/-!
# Signed webhook deliveries

What a webhook receives of an event: the body, and with it the timestamp, the delivery id and a
signature over the three. They are minted once, before the first attempt; an attempt that was
answered with a server error or not at all is made again, after a delay that doubles.

The packages that compute the MAC and write JSON are parameters. Left out: the address, the content
type, and the time an attempt takes.
-/

set_option autoImplicit false

namespace OidcExchange

open Texts

/-- The MAC of a message under a key, and the JSON text of a value. -/
structure WebhookLibrary : Type where
  hmacSha256 : List UInt8 → List UInt8 → List UInt8
  toVec : Value → Except String (List UInt8)

/-- What every attempt carries. SOURCE: adapters/src/webhook/mod.rs:96-106 -/
structure Delivery : Type where
  sentAt : String
  deliveryId : String
  signature : String
  body : List UInt8

def dot : UInt8 := 0x2E

/-- SOURCE: `hex::encode` -/
def hexEncode (bs : List UInt8) : List Char :=
  bs.flatMap fun b => [Nat.digitChar (b.toNat / 16), Nat.digitChar (b.toNat % 16)]

/-- What the MAC is fed, piece after piece. SOURCE: adapters/src/webhook/mod.rs:162-166 -/
def signedInput (timestamp deliveryId : String) (body : List UInt8) : List UInt8 :=
  bytes timestamp ++ [dot] ++ bytes deliveryId ++ [dot] ++ body

/-- SOURCE: adapters/src/webhook/mod.rs:154-169 -/
def computeDeliverySignature (lib : WebhookLibrary) (secret timestamp deliveryId : String)
    (body : List UInt8) : String :=
  "sha256=" ++ String.ofList
    (hexEncode (lib.hmacSha256 (bytes secret) (signedInput timestamp deliveryId body)))

/-- SOURCE: adapters/src/webhook/mod.rs:76-82 -/
def webhookPayload (eventName sentAt : String) (data : Value) : Value :=
  .object [("event", .string eventName), ("timestamp", .string sentAt), ("data", data)]

/-- What is minted at an instant with a fresh id. SOURCE: adapters/src/webhook/mod.rs:67-88 -/
def mintDelivery (lib : WebhookLibrary) (secret eventName : String) (data : Value) (now : Instant)
    (deliveryId : String) : Except (Fault Error) Delivery := do
  let sentAt := rfc3339 now
  assertThat (!sentAt.isEmpty && !deliveryId.isEmpty)
  let body ← (lib.toVec (webhookPayload eventName sentAt data)).mapError fun e =>
    .error (.syncError ("failed to serialize webhook payload: " ++ e))
  return {
    sentAt := sentAt
    deliveryId := deliveryId
    signature := computeDeliverySignature lib secret sentAt deliveryId body
    body := body }

/-! ## Attempts -/

namespace Webhook

open Interleaving

/-- SOURCE: core/src/config.rs:2346-2347 -/
def maxWebhookRetries : ℕ := 10

def defaultWebhookRetries : ℕ := 2

/-- SOURCE: core/src/config.rs:1390-1402 -/
def effectiveRetries (retries : Option ℕ) : ℕ :=
  let configured := retries.getD defaultWebhookRetries
  if maxWebhookRetries < configured then maxWebhookRetries else configured

/-- The JSON of a user and the text of a status; the number of retries is one the configuration
allows. SOURCE: adapters/src/webhook/mod.rs:35-41 -/
structure UserSync : Type where
  lib : WebhookLibrary
  toValue : User → Except String Value
  statusText : ℕ → String
  secret : String
  retries : ℕ
  bounded : retries ≤ maxWebhookRetries

/-- The sender of a configuration. SOURCE: server/src/bootstrap.rs:1529-1561 -/
def buildUserSync (lib : WebhookLibrary) (toValue : User → Except String Value)
    (statusText : ℕ → String) (secret : String) (retries : Option ℕ) : UserSync where
  lib := lib
  toValue := toValue
  statusText := statusText
  secret := secret
  retries := effectiveRetries retries
  bounded := by
    simp only [effectiveRetries]
    split <;> omega

/-- In milliseconds. SOURCE: adapters/src/webhook/mod.rs:12-20 -/
def baseBackoffMs : ℕ := 100

def maxBackoffShift : ℕ := 6

def maxBackoffMs : ℕ := 5000

/-- The delay before an attempt, the first retry being attempt 1; the multiplication saturates.
SOURCE: adapters/src/webhook/mod.rs:29-33 -/
def backoffDelay (attempt : ℕ) : ℕ :=
  min (min (baseBackoffMs * 2 ^ min (attempt - 1) maxBackoffShift) (2 ^ 64 - 1)) maxBackoffMs

/-- What an attempt comes to: a status, a timeout or a failure to connect, another failure. -/
inductive Reply : Type
  | status (code : ℕ)
  | unanswered (e : String)
  | failed (e : String)

/-- What follows from a reply: the delivery is made, is attempted again, or is given up. -/
inductive Verdict : Type
  | delivered
  | again (lastErr : String)
  | refused (detail : String)

/-- SOURCE: adapters/src/webhook/mod.rs:109-139 -/
def Reply.verdict (statusText : ℕ → String) : Reply → Verdict
  | .status code =>
    if 200 ≤ code ∧ code < 300 then .delivered
    else if 500 ≤ code ∧ code < 600 then .again ("server error: HTTP " ++ statusText code)
    else .refused ("webhook rejected: HTTP " ++ statusText code)
  | .unanswered e => .again ("request error: " ++ e)
  | .failed e => .refused ("webhook request failed: " ++ e)

/-- A reading of the clock, a draw of an id, a pause and an attempt. -/
inductive Command : Type
  | now
  | generateId
  | sleep (millis : ℕ)
  | post (delivery : Delivery)

abbrev Ans : Command → Type
  | .now => Instant
  | .generateId => String
  | .sleep _ => Unit
  | .post _ => Reply

variable (sync : UserSync)

/-- The attempts that are left, from one on. SOURCE: adapters/src/webhook/mod.rs:90-148 -/
def deliver (delivery : Delivery) : ℕ → ℕ → Option String → Adapter Ans Unit
  | 0, _, lastErr =>
    .raise (.error (.syncError ("webhook delivery failed after " ++ toString (sync.retries + 1) ++
      " attempts: " ++ lastErr.getD "unknown")))
  | left + 1, attempt, _ => do
    Adapter.when (decide (0 < attempt)) (Program.ask (Command.sleep (backoffDelay attempt)))
    match (← Program.ask (Command.post delivery)).verdict sync.statusText with
    | .delivered => .done ()
    | .again e => deliver delivery left (attempt + 1) (some e)
    | .refused detail => .raise (.error (.syncError detail))

/-- SOURCE: adapters/src/webhook/mod.rs:67-150 -/
def sendWebhook (eventName : String) (data : Value) : Adapter Ans Unit := do
  let now ← Program.ask Command.now
  let deliveryId ← Program.ask Command.generateId
  let delivery ← Program.ofExcept
    (mintDelivery sync.lib sync.secret eventName data now deliveryId)
  deliver sync delivery (sync.retries + 1) 0 none

/-- The JSON of a user, or the failure to write it. -/
def userValue (user : User) : Except (Fault Error) Value :=
  (sync.toValue user).mapError fun e => .error (.syncError ("failed to serialize user: " ++ e))

/-- What is sent of a notice. SOURCE: adapters/src/webhook/mod.rs:173-194 -/
def payloadOf : UserSyncNotice → Except (Fault Error) (String × Value)
  | .created user => (userValue sync user).map fun value => ("user.created", value)
  | .updated user changedFields => (userValue sync user).map fun value =>
    ("user.updated", .object [("user", value),
      ("changed_fields", .array (changedFields.map .string))])
  | .deleted userId => .ok ("user.deleted", .object [("user_id", .string userId)])

/-- SOURCE: adapters/src/webhook/mod.rs:172-195 -/
def notify (notice : UserSyncNotice) : Adapter Ans Unit := do
  let (eventName, data) ← Program.ofExcept (payloadOf sync notice)
  sendWebhook sync eventName data

/-! ## The receiver -/

/-- The clock, the ids that were drawn, and what has reached the receiver, newest first. -/
structure World : Type where
  clock : Instant
  ids : List String
  received : List Delivery

/-- What the environment decides: an id, and whether an attempt reaches the receiver and what
comes back. -/
inductive Choice : Type
  | proceed
  | draw (id : String)
  | reach (reply : Reply)
  | lose (reply : Reply)

/-- An id has 26 characters and is new; what is lost on its way is not answered with a status. -/
def exec (x : Choice) (_c : ℕ) (o : Command) (w : World) : Option (Ans o × World) :=
  match o, x with
  | .now, .proceed => some (w.clock, w)
  | .generateId, .draw id =>
    if id.length = 26 ∧ id ∉ w.ids then some (id, { w with ids := id :: w.ids }) else none
  | .sleep millis, .proceed => some ((), { w with clock := w.clock + millis * 10 ^ 6 })
  | .post delivery, .reach reply =>
    some (reply, { w with received := delivery :: w.received })
  | .post _, .lose reply => if reply matches .status _ then none else some (reply, w)
  | _, _ => none

/-- Time passes. -/
def drift (later : Instant) (w : World) : Option World :=
  if w.clock ≤ later then some { w with clock := later } else none

def semantics : Semantics Ans World Choice Instant where
  exec := exec
  drift := drift

abbrev SyncPool : Type := Pool Ans UserSyncNotice (Fault Error) Unit World

abbrev SyncMoment : Type := Moment Ans UserSyncNotice World

abbrev SyncAct : Type := Act UserSyncNotice Choice Instant

/-- The notices that are sent, as a transition system. -/
abbrev sending : System SyncPool SyncAct := Pool.system semantics (notify sync)

/-- Nothing was sent. -/
def SyncPool.start (clock : Instant) : SyncPool :=
  Pool.initial { clock := clock, ids := [], received := [] }

end Webhook

end OidcExchange
