import OidcExchange.Interleaving.Discipline
import OidcExchange.Model.Ports

/-!
# Calls of a store adapter

An adapter answers a port call by talking to its store: every statement, command or
request to the store is one atomic operation of the call. What the store answers and
what the call may do next differ from store to store; how a call fails does not.
-/

set_option autoImplicit false

namespace OidcExchange

open Interleaving

/-- A call of an adapter that ends in a value, an error or a panic. -/
abbrev Adapter {Op : Type} (Ans : Op → Type) (α : Type) : Type := Program Ans (Fault Error) α

namespace Adapter

variable {Op : Type} {Ans : Op → Type} {α : Type}

/-- A failed assertion ends the call. -/
def assert (condition : Bool) : Adapter Ans Unit :=
  if condition then .done () else .raise .panic

/-- Do something only where the condition holds. -/
def when (condition : Bool) (p : Adapter Ans Unit) : Adapter Ans Unit :=
  if condition then p else .done ()

/-- Await the store and pass its failure on. -/
def await (p : Adapter Ans (Answer α)) : Adapter Ans α := p >>= Program.ofExcept

/-! ## Disciplines of adapter calls -/

variable {ready : List (Performed Ans) → Op → Prop} {past : List (Performed Ans)}
  {post : List (Performed Ans) → Except (Fault Error) α → Prop}

/-- An assertion either holds and the call goes on, or the call panics. -/
theorem obeys_assert {b : Bool} {f : Unit → Adapter Ans α}
    (htrue : b = true → (f ()).Obeys ready post past)
    (hfalse : b = false → post past (.error .panic)) :
    (assert b >>= f : Adapter Ans α).Obeys ready post past := by
  cases b with
  | true => exact htrue rfl
  | false => exact hfalse rfl

/-- A conditional part takes place or is passed over. -/
theorem obeys_when {b : Bool} {p : Adapter Ans Unit}
    {goal : List (Performed Ans) → Except (Fault Error) Unit → Prop}
    (htrue : b = true → p.Obeys ready goal past) (hfalse : b = false → goal past (.ok ())) :
    (Adapter.when b p).Obeys ready goal past := by
  cases b with
  | true => exact htrue rfl
  | false => exact hfalse rfl

/-- One operation of the store, awaited. -/
theorem obeys_await {o : Op} {g : Ans o → Answer α} {P : List (Performed Ans) → α → Prop}
    (hready : ready past o) (hP : ∀ ans a, g ans = .ok a → P (⟨o, ans⟩ :: past) a) :
    (Adapter.await (.perform o fun ans => .done (g ans)) : Adapter Ans α).Obeys ready
      (Program.Grown past P) past :=
  Program.obeys_perform_grown hready hP

@[simp] theorem when_only {P : Op → Prop} {b : Bool} {p : Adapter Ans Unit} (hp : p.Only P) :
    (Adapter.when b p).Only P := by
  cases b with
  | true => exact hp
  | false => trivial

theorem await_only {P : Op → Prop} {p : Adapter Ans (Answer α)} (hp : p.Only P) :
    (Adapter.await p).Only P :=
  hp.bind fun _ => Program.only_ofExcept _

@[simp] theorem assert_only {P : Op → Prop} (b : Bool) : (Adapter.assert b : Adapter Ans Unit).Only P := by
  cases b <;> trivial

/-! ## A small store -/

namespace Sample

/-- The owner of the sessions. -/
def theUser : String := "usr"

/-- Their family. -/
def theFamily : String := "fam_00000000000000000000000000"

/-- One generation of the family, which expires after an hour. -/
def generation (tokenHash : String) (number : UInt32) : Session where
  userId := theUser
  refreshTokenHash := tokenHash
  familyId := theFamily
  generation := number
  provider := "idp"
  expiresAt := 3600000000000
  rotatedAt := none
  deviceId := none
  userAgent := none
  ipAddress := none
  location := none
  createdAt := 0

end Sample

end Adapter

end OidcExchange
