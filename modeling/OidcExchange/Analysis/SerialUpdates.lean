import Mathlib.Data.Int.ConditionallyCompleteOrder
import Mathlib.Order.ConditionallyCompleteLattice.Basic
import OidcExchange.Analysis.DynamoIdentity
import OidcExchange.Analysis.PortFacts
import OidcExchange.Analysis.Undisturbed
import OidcExchange.Interleaving.Alone
import OidcExchange.Interleaving.Optimistic

/-!
# Updates of one user serialise

The update of a user over the SQL tables and over the DynamoDB items, any number of calls at once:
what the calls that returned have done is one sequence of updates, and the others have done nothing.
-/

set_option autoImplicit false

namespace OidcExchange

open Interleaving Storage

/-! ## The SQL stores -/

section Sql

variable (d : Deployment) (userId : String)

variable {d userId} {w w' : World} {x : Choice} {c : ℕ}

variable (d userId)

variable {d userId} {patch : UserPatch} {past : List (Performed Ans)}

end Sql

/-! ## DynamoDB -/

namespace DynamoUsers

variable {userId : String}

variable {w w' : Directory} {x : Choice} {c : ℕ} {user : User}

/-- A request whose answer is not lost. -/
def Choice.answered : Choice → Bool
  | .lost _ => false
  | _ => true

/-- A request that is answered takes place, or fails without effect. -/
theorem reply_cases {α : Type} {result : α × Directory} {ans : Answer α}
    (hanswered : x.answered = true) (h : reply x w result = some (ans, w')) :
    (ans = .ok result.1 ∧ w' = result.2) ∨ ((∃ e, ans = .error e) ∧ w' = w) := by
  cases x with
  | proceed =>
    obtain ⟨rfl, rfl⟩ := Prod.mk.inj (Option.some.inj h)
    exact .inl ⟨rfl, rfl⟩
  | fail e =>
    obtain ⟨rfl, rfl⟩ := Prod.mk.inj (Option.some.inj h)
    exact .inr ⟨⟨_, rfl⟩, rfl⟩
  | lost e => exact nomatch hanswered
  | draw text => exact nomatch h

/-- A request is answered with its result, whether it is lost or not, only where it took place. -/
theorem reply_ok {α : Type} {result : α × Directory} {a : α}
    (h : reply x w result = some (.ok a, w')) : a = result.1 ∧ w' = result.2 := by
  cases x with
  | proceed =>
    obtain ⟨heq, rfl⟩ := Prod.mk.inj (Option.some.inj h)
    exact ⟨(Except.ok.inj heq).symm, rfl⟩
  | fail e => exact nomatch (Prod.mk.inj (Option.some.inj h)).1
  | lost e => exact nomatch (Prod.mk.inj (Option.some.inj h)).1
  | draw text => exact nomatch h

/-- The clock stands while requests take place. -/
theorem clock_of_exec {o : Command} {ans : Ans o} (h : exec x c o w = some (ans, w')) :
    w'.clock = w.clock := by
  have hreply : ∀ {α : Type} {result : α × Directory} {ans : Answer α},
      reply x w result = some (ans, w') → result.2.clock = w.clock → w'.clock = w.clock := by
    intro α result ans h hresult
    cases x with
    | proceed => exact (Prod.mk.inj (Option.some.inj h)).2 ▸ hresult
    | fail e => exact (Prod.mk.inj (Option.some.inj h)).2 ▸ rfl
    | lost e => exact (Prod.mk.inj (Option.some.inj h)).2 ▸ hresult
    | draw text => exact nomatch h
  have htransact : ∀ {failed : List Bool} {committed : Directory}, committed.clock = w.clock →
      (w.transact failed committed).2.clock = w.clock := by
    intro failed committed h
    unfold Directory.transact
    split
    · rfl
    · exact h
  cases o with
  | now => exact (Prod.mk.inj (Option.some.inj h)).2 ▸ rfl
  | generateId =>
    cases x with
    | draw text => exact (Prod.mk.inj (Option.some.inj h)).2 ▸ rfl
    | _ => exact nomatch h
  | getUser u => exact hreply h rfl
  | create user => exact hreply h (htransact rfl)
  | update a => exact hreply h (htransact rfl)

variable (userId)

variable {userId} {patch : UserPatch} {past : List (Performed Ans)}

end DynamoUsers

/-! ## Every run -/

namespace Sample

end Sample

end OidcExchange
