import OidcExchange.Model.Domain

/-!
# What a client sees of an error

The mapping of a domain error to the response of the HTTP boundary. Its log line, and the
copy of the code that the request log reads, are left out.
-/

set_option autoImplicit false

namespace OidcExchange

/-- The only description that crosses the boundary. SOURCE: core/src/error.rs:82-118 -/
def Error.clientDescription : Error → String
  | .invalidGrant _ => "the provided grant could not be validated"
  | .invalidToken _ => "the provided token could not be validated"
  | .invalidRequest _ => "the request is missing a required parameter or is otherwise malformed"
  | .unknownProvider _ => "no identity provider matched the requested name"
  | .accessDenied _ => "access was denied for this account or request"
  | .userSuspended _ => "user account is suspended"
  | .unauthorized _ => "the request could not be authenticated"
  | .conflict _ => "the request conflicts with an existing resource"
  | .notFound _ => "the requested resource was not found"
  | .tooManyRequests _ => "too many authentication attempts"
  | .providerError _ _ => "upstream provider error"
  | .providerTimeout _ => "upstream provider timeout"
  | .storeError _ => "internal server error"
  | .keyError _ => "internal server error"
  | .auditError _ => "internal server error"
  | .securityAuditDurability _ => "internal server error"
  | .syncError _ => "internal server error"
  | .configError _ => "internal server error"

/-- Status, body and retry header of an error response. SOURCE: server/src/error.rs:37-66 -/
structure ErrorResponse : Type where
  status : ℕ
  error : String
  errorDescription : String
  retryAfter : Option ℕ
  deriving DecidableEq

/-- The status and the error code. SOURCE: server/src/error.rs:125-212 -/
def Error.statusAndCode : Error → ℕ × String
  | .invalidGrant _ => (400, "invalid_grant")
  | .invalidToken _ => (401, "invalid_token")
  | .invalidRequest _ => (400, "invalid_request")
  | .unknownProvider _ => (400, "invalid_request")
  | .accessDenied _ => (403, "access_denied")
  | .userSuspended _ => (403, "access_denied")
  | .unauthorized _ => (401, "unauthorized")
  | .conflict _ => (409, "conflict")
  | .notFound _ => (404, "not_found")
  | .tooManyRequests _ => (429, "slow_down")
  | .providerError _ _ => (502, "server_error")
  | .providerTimeout _ => (504, "server_error")
  | .storeError _ => (500, "server_error")
  | .keyError _ => (500, "server_error")
  | .auditError _ => (500, "server_error")
  | .securityAuditDurability _ => (500, "server_error")
  | .syncError _ => (500, "server_error")
  | .configError _ => (500, "server_error")

/-- The description: that of the variant, but for a malformed request, whose reason names the
parameter. SOURCE: server/src/error.rs:127-212 -/
def Error.description : Error → String
  | .invalidRequest reason => reason
  | error => error.clientDescription

/-- SOURCE: server/src/error.rs:51-62 -/
def Error.retryAfter : Error → Option ℕ
  | .tooManyRequests secs => some (max secs 1)
  | _ => none

/-- SOURCE: server/src/error.rs:37-66 and 127-212 -/
def Error.intoResponse (error : Error) : ErrorResponse where
  status := error.statusAndCode.1
  error := error.statusAndCode.2
  errorDescription := error.description
  retryAfter := error.retryAfter

/-- The same variant and the same response. -/
def SameForClient (e e' : Error) : Prop :=
  e.ctorIdx = e'.ctorIdx ∧ e.intoResponse = e'.intoResponse

theorem SameForClient.refl (e : Error) : SameForClient e e := ⟨rfl, rfl⟩

end OidcExchange
