import OidcExchange.Model.Domain

/-!
# Audit events

The audit vocabulary of the core: severities, event types, the closed set of
security events with the classification each one fixes, and the event handed to
the audit sink.

Left out: an event's identifier and time stamp, which no modelled function reads.
-/

set_option autoImplicit false

namespace OidcExchange

open Storage

/-! ## Client addresses -/

/-- SOURCE: core/src/domain/audit.rs:12-13 -/
def maxAssertedClientAddrLen : ℕ := 128

/-- A client-authored address that fits the audit bound.
SOURCE: core/src/domain/audit.rs:111-126 -/
structure AssertedClientAddr : Type where
  value : String
  bounded : value.utf8ByteSize ≤ maxAssertedClientAddrLen

/-- A client address and how the service learned it; a network address is held in its
text form. SOURCE: core/src/domain/audit.rs:95-109 -/
inductive ClientAddr : Type
  | peer (address : String)
  | forwarded (address : String)
  | reported (address : String)
  | asserted (address : AssertedClientAddr)
  | unknown

/-- SOURCE: core/src/domain/audit.rs:81-93 -/
inductive ClientAddrSource : Type
  | peer
  | forwarded
  | reported
  | asserted
  | unknown
  deriving DecidableEq

/-- SOURCE: core/src/domain/audit.rs:144-152 -/
def ClientAddr.source : ClientAddr → ClientAddrSource
  | .peer _ => .peer
  | .forwarded _ => .forwarded
  | .reported _ => .reported
  | .asserted _ => .asserted
  | .unknown => .unknown

/-- SOURCE: core/src/domain/audit.rs:154-162 -/
def ClientAddr.auditAddress : ClientAddr → Option String
  | .peer address => some address
  | .forwarded address => some address
  | .reported address => some address
  | .asserted address => some address.value
  | .unknown => none

/-! ## Operators -/

/-- SOURCE: core/src/domain/operator.rs:17-27 -/
inductive OperatorAuthMechanism : Type
  | mutualTls
  | operatorToken
  | sharedSecret
  deriving DecidableEq

/-- SOURCE: core/src/domain/operator.rs:33 -/
def unattributedOperatorId : String := "unattributed"

/-- SOURCE: core/src/domain/operator.rs:41-46 -/
structure OperatorPrincipal : Type where
  id : String
  mechanism : OperatorAuthMechanism
  deriving DecidableEq

/-- What the source asserts of a principal before it enters an event.
SOURCE: core/src/domain/operator.rs:68-79 -/
def OperatorPrincipal.invariants (principal : OperatorPrincipal) : Bool :=
  !principal.id.isEmpty &&
    ((principal.mechanism != .sharedSecret) == (principal.id != unattributedOperatorId))

/-- SOURCE: core/src/domain/operator.rs:86-95 -/
inductive OperatorAuthFailureReason : Type
  | missingCredential
  | invalidCredential
  | notConfigured
  deriving DecidableEq

/-! ## Events -/

/-- Mapped to syslog severity levels. SOURCE: core/src/domain/audit.rs:40-52 -/
inductive AuditSeverity : Type
  | emergency
  | alert
  | critical
  | error
  | warning
  | notice
  | info
  | debug
  deriving DecidableEq

/-- The discriminant of a severity. SOURCE: core/src/domain/audit.rs:43-52 -/
def AuditSeverity.level : AuditSeverity → ℕ
  | .emergency => 0
  | .alert => 1
  | .critical => 2
  | .error => 3
  | .warning => 4
  | .notice => 5
  | .info => 6
  | .debug => 7

/-- SOURCE: core/src/domain/audit.rs:54-79 -/
inductive AuditEventType : Type
  | tokenExchange
  | tokenRefresh
  | tokenRevocation
  | sessionRevoked
  | allSessionsRevoked
  | userCreated
  | userUpdated
  | userSuspended
  | userDeleted
  | validationFailed
  | registrationDenied
  | providerError
  | unauthorized
  | throttleExceeded
  | refreshTokenReuse
  | missingCredential
  | invalidCredential
  | notConfigured
  | storeError
  deriving DecidableEq

/-- SOURCE: core/src/domain/audit.rs:386-407 -/
inductive AuditFailure : Type
  | authenticationFailed
  | registrationDenied
  | principalSuspended
  | providerRejected
  | throttleExceeded
  | refreshTokenReuse
  | missingCredential
  | invalidCredential
  | notConfigured
  | storeError
  deriving DecidableEq

/-- SOURCE: core/src/domain/audit.rs:409-413 -/
inductive AuditOutcome : Type
  | success
  | failure (reason : AuditFailure)
  deriving DecidableEq

/-- SOURCE: core/src/domain/audit.rs:200-204 -/
inductive AuthenticationKind : Type
  | exchange
  | refresh
  deriving DecidableEq

/-- SOURCE: core/src/domain/audit.rs:206-219 -/
inductive AdminMutationKind : Type
  | created
  | updated
  | suspended
  | deleted
  | sessionRevoked
  | sessionsRevoked
  deriving DecidableEq

/-- The outcomes that always carry fixed audit metadata.
SOURCE: core/src/domain/audit.rs:173-198 -/
inductive SecurityEvent : Type
  | authenticationSucceeded (kind : AuthenticationKind)
  | authenticationFailed
  | registrationDenied
  | principalSuspended
  | principalCreated
  | sessionRevoked
  | sessionsRevoked
  | providerRejected
  | adminMutation (kind : AdminMutationKind)
  | operatorAuthenticationFailed (reason : OperatorAuthFailureReason)
  | refreshTokenReuse
  | throttleExceeded

/-- SOURCE: core/src/domain/audit.rs:222-236 -/
def SecurityEvent.severity : SecurityEvent → AuditSeverity
  | .authenticationSucceeded _ => .info
  | .sessionRevoked => .info
  | .authenticationFailed => .warning
  | .registrationDenied => .warning
  | .principalSuspended => .warning
  | .providerRejected => .warning
  | .operatorAuthenticationFailed _ => .warning
  | .refreshTokenReuse => .warning
  | .throttleExceeded => .warning
  | .principalCreated => .notice
  | .sessionsRevoked => .notice
  | .adminMutation _ => .notice

/-- SOURCE: core/src/domain/audit.rs:238-275 -/
def SecurityEvent.eventType : SecurityEvent → AuditEventType
  | .authenticationSucceeded .exchange => .tokenExchange
  | .authenticationSucceeded .refresh => .tokenRefresh
  | .authenticationFailed => .validationFailed
  | .registrationDenied => .registrationDenied
  | .principalSuspended => .userSuspended
  | .principalCreated => .userCreated
  | .sessionRevoked => .tokenRevocation
  | .sessionsRevoked => .allSessionsRevoked
  | .providerRejected => .providerError
  | .adminMutation .created => .userCreated
  | .adminMutation .updated => .userUpdated
  | .adminMutation .suspended => .userSuspended
  | .adminMutation .deleted => .userDeleted
  | .adminMutation .sessionRevoked => .sessionRevoked
  | .adminMutation .sessionsRevoked => .allSessionsRevoked
  | .operatorAuthenticationFailed _ => .unauthorized
  | .refreshTokenReuse => .refreshTokenReuse
  | .throttleExceeded => .throttleExceeded

/-- SOURCE: core/src/domain/audit.rs:19-38 -/
structure AuditEvent : Type where
  severity : AuditSeverity
  eventType : AuditEventType
  actor : Option String
  operator : Option OperatorPrincipal
  provider : Option String
  ipAddress : Option String
  ipAddressSource : ClientAddrSource
  userAgent : Option String
  detail : Table String Value
  outcome : AuditOutcome

/-- SOURCE: core/src/service/mod.rs:367-394 -/
def createAuditEvent (eventType : AuditEventType) (severity : AuditSeverity)
    (outcome : AuditOutcome) (actor provider : Option String) (clientAddr : ClientAddr)
    (userAgent : Option String) : AuditEvent where
  severity := severity
  eventType := eventType
  actor := actor
  operator := none
  provider := provider
  ipAddress := clientAddr.auditAddress
  ipAddressSource := clientAddr.source
  userAgent := userAgent
  detail := ∅
  outcome := outcome

/-- SOURCE: core/src/domain/audit.rs:279-305 -/
def SecurityEvent.intoAuditEvent (event : SecurityEvent) (outcome : AuditOutcome)
    (actor provider : Option String) (clientAddr : ClientAddr) (userAgent : Option String) :
    AuditEvent :=
  createAuditEvent event.eventType event.severity outcome actor provider clientAddr userAgent

end OidcExchange
