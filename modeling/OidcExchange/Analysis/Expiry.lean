import OidcExchange.Adapters.LiveSessions
import OidcExchange.Analysis.LmdbAlone
import OidcExchange.Analysis.LmdbIndex
import OidcExchange.Analysis.Undisturbed

/-!
# When a session has expired

The gate of a refresh, the listing of a user's sessions and the cleanup of a store each compare an
expiry with the clock. They agree at every instant but the expiry itself, where the gate still
lets a session pass that no listing shows any more.
-/

set_option autoImplicit false

namespace OidcExchange

open Storage Interleaving

/-! ## The gate -/

section Gate

variable (d : Deployment)

variable {d} {s : Session} {now : Instant}

end Gate

/-! ## Listings -/

section Listings

variable {d : Deployment}

end Listings

/-! ## Cleanups -/

/-- Every session is stored under its own hash. -/
def Lmdb.Keyed (t : Lmdb.Tables) : Prop :=
  ∀ h s, t.sessions.lookup h = some s → s.refreshTokenHash = h

section Sweeps

variable {d : Deployment}

end Sweeps

/-! ## All layers -/

end OidcExchange
