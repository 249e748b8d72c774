import OidcExchange.Model.Ports

/-!
# Single-use records

A nonce or a replay marker is claimed once: `put_single_use` writes a key that no live record
holds, `take_single_use` burns a live record. A call whose binding controls are written out
performs these beside the operations of the ports.
-/

set_option autoImplicit false

namespace OidcExchange

open Storage Interleaving

/-- Claiming and burning a key at an instant. SOURCE: core/src/ports/repository.rs:155-179 -/
structure SingleUseStore (σ : Type) : Type where
  put : Instant → String → Instant → σ → Answer Bool × σ
  take : Instant → String → σ → Answer Bool × σ

/-- A refusal of the store, with its text. -/
def storeError {α : Type} (detail : String) : Answer α := .error (.error (.storeError detail))

/-- The rule of the port: a record is live while its expiry is after the clock.
SOURCE: core/src/ports/repository.rs:155-179 -/
def SingleUseStore.port : SingleUseStore (Table String Instant) where
  put now key expiresAt t :=
    if key = "" then (.error .panic, t)
    else
      match t.lookup key with
      | none => (.ok true, t.insert key expiresAt)
      | some expiry => if now < expiry then (.ok false, t) else (.ok true, t.insert key expiresAt)
  take now key t :=
    if key = "" then (.error .panic, t)
    else
      match t.lookup key with
      | none => (.ok false, t)
      | some expiry => (.ok (decide (now < expiry)), t.erase key)

/-! ## Operations -/

/-- The operations of the ports, and claiming and burning single-use keys. -/
inductive BindingOp : Type
  | port (o : Op)
  | putSingleUse (key : String) (expiresAt : Instant)
  | takeSingleUse (key : String)

/-- The type of the answer to an operation. -/
abbrev BindingAns : BindingOp → Type
  | .port o => Ans o
  | .putSingleUse _ _ => Answer Bool
  | .takeSingleUse _ => Answer Bool

/-- What the environment decides: about an operation as it does for the ports, or that its
answer is lost. -/
inductive BindingChoice : Type
  | port (x : Choice)
  | lost (e : Error)

/-- What the world can do on its own: as before, or an expired record is reclaimed. -/
inductive BindingDrift : Type
  | ports (k : Drift)
  | reclaim (key : String)

/-- The world of the ports and the single-use records. -/
structure BindingWorld : Type where
  ports : World
  singleUse : Table String Instant

/-- The world before anything happened. -/
def BindingWorld.empty (clock : Instant) : BindingWorld := ⟨World.empty clock, ∅⟩

namespace BindingWorld

variable (w : BindingWorld)

/-- An operation on the single-use records takes place, does not, or takes place with its
answer lost. -/
def answerSingleUse (done : Answer Bool × Table String Instant) :
    BindingChoice → Option (Answer Bool × BindingWorld)
  | .port .proceed => some (done.1, { w with singleUse := done.2 })
  | .port (.fail e) => some (.error (.error e), w)
  | .lost e => some (.error (.error e), { w with singleUse := done.2 })
  | .port _ => none

/-- The answer and the world after one operation. -/
def exec (d : Deployment) (x : BindingChoice) (c : ℕ) (o : BindingOp) (w : BindingWorld) :
    Option (BindingAns o × BindingWorld) :=
  match o with
  | .port o =>
    match x with
    | .port x => (OidcExchange.exec d x c o w.ports).map fun r => (r.1, { w with ports := r.2 })
    | .lost _ => none
  | .putSingleUse key expiresAt =>
    w.answerSingleUse (SingleUseStore.port.put w.ports.clock key expiresAt w.singleUse) x
  | .takeSingleUse key =>
    w.answerSingleUse (SingleUseStore.port.take w.ports.clock key w.singleUse) x

/-- The world moves on its own. -/
def drift (k : BindingDrift) (w : BindingWorld) : Option BindingWorld :=
  match k with
  | .ports k => (OidcExchange.drift k w.ports).map fun ports => { w with ports := ports }
  | .reclaim key =>
    match w.singleUse.lookup key with
    | some expiry =>
      if expiry ≤ w.ports.clock then some { w with singleUse := w.singleUse.erase key } else none
    | none => none

end BindingWorld

/-- The operations of a deployment as a semantics for pools of calls. -/
def bindingSemantics (d : Deployment) :
    Semantics BindingAns BindingWorld BindingChoice BindingDrift where
  exec := BindingWorld.exec d
  drift := BindingWorld.drift

end OidcExchange
