import OidcExchange.Program.Exchange
import OidcExchange.Program.Refresh
import OidcExchange.Program.UserAdmin

/-!
# The service as a pool of calls

Clients and administrators send requests; each request is one call, and the calls
interleave over the ports in any order.
-/

set_option autoImplicit false

namespace OidcExchange

open Interleaving

/-- A request to the service. -/
inductive Request : Type
  | refresh (request : RefreshRequest)
  | exchange (request : ExchangeRequest)
  | adminUpdateUser (operator : OperatorPrincipal) (userId : String) (patch : UserPatch)
  | adminDeleteUser (operator : OperatorPrincipal) (userId : String)

/-- What a request returns. -/
inductive Response : Type
  | tokens (response : TokenResponse)
  | user (user : User)
  | deleted

/-- The call a request starts. -/
def serve (d : Deployment) : Request → Service Error Response
  | .refresh request => .tokens <$> refresh d request
  | .exchange request => .tokens <$> exchange d request
  | .adminUpdateUser operator userId patch => .user <$> adminUpdateUser d operator userId patch
  | .adminDeleteUser operator userId => (fun _ => .deleted) <$> adminDeleteUser d operator userId

/-- The state of a running service. -/
abbrev ServicePool : Type := Pool Ans Request (Fault Error) Response World

/-- One scheduling step of the service. -/
abbrev ServiceAct : Type := Act Request Choice Drift

/-- What the service remembers of the past. -/
abbrev ServiceEvent : Type := Event Ans Request

/-- The world of the service together with its history. -/
abbrev ServiceMoment : Type := Moment Ans Request World

/-- The service as a transition system. -/
def service (d : Deployment) : System ServicePool ServiceAct :=
  Pool.system (portSemantics d) (serve d)

/-- The service before any request, on an empty store. -/
def ServicePool.start (clock : Instant) : ServicePool := Pool.initial (World.empty clock)

end OidcExchange
