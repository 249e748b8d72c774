import OidcExchange.Interleaving.Testing
import OidcExchange.Program.AdminUiAuth
import OidcExchange.Throttling.FixedWindow

/-!
# Recovery of the admin interface from a rotation

A token that is valid under what the exchange serves is verified, if not with the cached material
then with what a request started since it was presented brings, unless its key identifier is
remembered from before, its algorithm is not one of the cached material, or the request in flight
is older than the token's presentation.
-/

set_option autoImplicit false

namespace OidcExchange

open Interleaving Throttling

variable {ui : AdminUi}

/-! ## Runs -/

abbrev AuthPast : Type := List (Performed AuthAns)

abbrev AuthMoment : Type := Moment AuthAns String AuthWorld

abbrev AuthPool : Type := Pool AuthAns String AuthError Value AuthWorld

abbrev AuthAct : Type := Act String Unit AuthDrift

/-- The operations, as a semantics for pools of calls. -/
def authSemantics (ui : AdminUi) : Semantics AuthAns AuthWorld Unit AuthDrift where
  exec _ _ := AuthWorld.exec ui
  drift := AuthWorld.drift ui

/-- The verifications as a transition system. -/
abbrev authSystem (ui : AdminUi) : System AuthPool AuthAct :=
  Pool.system (authSemantics ui) ui.verifyAccessToken

/-! ## What one operation does -/

/-- Everything one operation can do. -/
inductive AuthStep (ui : AdminUi) (w : AuthWorld) : (o : AuthOp) → AuthAns o → AuthWorld → Prop
  | fresh (material : VerificationMaterial) (h : w.freshMaterial = some material) :
      AuthStep ui w .getMaterial (.inl material) w
  | joined (h : w.freshMaterial = none) :
      AuthStep ui w .getMaterial (.inr w.joinRequest.1) w.joinRequest.2
  | awaited (ticket : MaterialTicket) (outcome : Except AuthError VerificationMaterial)
      (h : w.concluded.lookup ticket = some outcome) :
      AuthStep ui w (.awaitMaterial ticket) outcome w
  | verified (token : String) (material : VerificationMaterial) (refreshed : Option MaterialTicket) :
      AuthStep ui w (.verify token material refreshed)
        (ui.verifyWithMaterial token material w.clock) w
  | decided (kid : String) :
      AuthStep ui w (.decideRefresh kid) (w.decideRefresh kid).1 (w.decideRefresh kid).2
  | remembered (kid : String) :
      AuthStep ui w (.rememberNegativeKid kid) () (w.rememberNegativeKid kid)

theorem AuthStep.of_exec {o : AuthOp} {w w' : AuthWorld} {ans : AuthAns o}
    (h : AuthWorld.exec ui o w = some (ans, w')) : AuthStep ui w o ans w' := by
  cases o with
  | getMaterial =>
    cases hfresh : w.freshMaterial with
    | some material =>
      simp only [AuthWorld.exec, hfresh] at h
      obtain ⟨rfl, rfl⟩ := Prod.mk.inj (Option.some.inj h)
      exact .fresh material hfresh
    | none =>
      simp only [AuthWorld.exec, hfresh] at h
      obtain ⟨rfl, rfl⟩ := Prod.mk.inj (Option.some.inj h)
      exact .joined hfresh
  | awaitMaterial ticket =>
    obtain ⟨outcome, hlookup, heq⟩ := Option.map_eq_some_iff.mp h
    obtain ⟨rfl, rfl⟩ := Prod.mk.inj heq
    exact .awaited ticket outcome hlookup
  | verify token material refreshed =>
    obtain ⟨rfl, rfl⟩ := Prod.mk.inj (Option.some.inj h)
    exact .verified token material refreshed
  | decideRefresh kid =>
    obtain ⟨rfl, rfl⟩ := Prod.mk.inj (Option.some.inj h)
    exact .decided kid
  | rememberNegativeKid kid =>
    obtain ⟨rfl, rfl⟩ := Prod.mk.inj (Option.some.inj h)
    exact .remembered kid

/-! ## Requests for material -/

/-- The material comes from documents that were served since the documents had changed so often. -/
def LoadedSince (ui : AdminUi) (w : AuthWorld) (mark : ℕ) (material : VerificationMaterial) :
    Prop :=
  ∃ d ∈ w.servedSince mark, ∃ k ∈ w.servedSince mark, ∃ now,
    ui.loadVerificationMaterial d.discovery k.jwks now = .ok material

section Served

variable {w w' : AuthWorld} {mark mark' : ℕ} {material : VerificationMaterial}

theorem servedSince_subset (h : mark ≤ mark') : w.servedSince mark' ⊆ w.servedSince mark := by
  apply List.IsPrefix.subset
  apply List.take_prefix_take_left
  omega

/-- What a request can bring, it can bring after the documents have changed once more. -/
theorem servedSince_serve (h : mark ≤ w.served.length) (documents : ServedDocuments) :
    w.servedSince mark ⊆ ({ w with served := documents :: w.served }).servedSince mark := by
  intro found hfound
  unfold AuthWorld.servedSince at hfound ⊢
  have hlength : (documents :: w.served).length - mark + 1 = w.served.length - mark + 1 + 1 := by
    rw [List.length_cons]
    omega
  rw [hlength, List.take_succ_cons]
  exact List.mem_cons_of_mem _ hfound

theorem LoadedSince.mono (h : LoadedSince ui w mark material)
    (hsub : w.servedSince mark ⊆ w'.servedSince mark') : LoadedSince ui w' mark' material := by
  obtain ⟨d, hd, k, hk, now, hload⟩ := h
  exact ⟨d, hsub hd, k, hsub hk, now, hload⟩

/-- Loading at another instant gives the same material, dated otherwise. -/
theorem load_at {discovery jwks : Value} {now : ℕ} (later : ℕ)
    (h : ui.loadVerificationMaterial discovery jwks now = .ok material) :
    ui.loadVerificationMaterial discovery jwks later = .ok { material with cachedAt := later } := by
  unfold AdminUi.loadVerificationMaterial at h ⊢
  cases hurl : ui.requireHttpsUrl ui.exchangeUrl "OIDC_EXCHANGE_URL" with
  | error e => rw [hurl] at h; exact nomatch h
  | ok exchangeUrl =>
    rw [hurl] at h
    cases hdiscovery : ui.parseDiscovery discovery exchangeUrl with
    | error e => simp [hdiscovery, bind, Except.bind] at h
    | ok parsed =>
      cases hjwks : parseJwks jwks parsed.algorithms with
      | error e => simp [hdiscovery, hjwks, bind, Except.bind] at h
      | ok keys =>
        simp only [hdiscovery, hjwks, bind, Except.bind, Except.ok.injEq] at h ⊢
        subst h
        rfl

/-- The request that is joined is the one under way, which is a new one if there was none. -/
theorem joinRequest_cases (w : AuthWorld) :
    (∃ request, w.materialRequest = some request ∧ w.joinRequest = (request.ticket, w)) ∨
      w.materialRequest = none ∧ w.joinRequest = (⟨w.requests, w.served.length⟩,
        { w with
          materialRequest := some ⟨⟨w.requests, w.served.length⟩, none⟩
          requests := w.requests + 1 }) := by
  unfold AuthWorld.joinRequest
  cases hrequest : w.materialRequest with
  | none => exact .inr ⟨rfl, rfl⟩
  | some request => exact .inl ⟨request, rfl, rfl⟩

end Served

/-- The ticket of a request that an operation handed to its call. -/
def RefreshDecision.ticket : RefreshDecision → Option MaterialTicket
  | .denied pending => pending
  | .forced ticket _ => some ticket

/-- The ticket that an operation handed to its call. -/
def handedTicket : (o : AuthOp) → AuthAns o → Option MaterialTicket
  | .getMaterial, .inr ticket => some ticket
  | .decideRefresh _, decision => decision.ticket
  | _, _ => none

/-- The instant at which a refresh was forced. -/
def refreshAt : (o : AuthOp) → AuthAns o → Option ℕ
  | .decideRefresh _, .forced _ instant => some instant
  | _, _ => none

/-- The instants at which refreshes were forced, newest first. -/
def forcedRefreshes (m : AuthMoment) : List ℕ := (m.collect refreshAt).map Prod.snd

/-- A ticket that was handed out is of the request under way or of one that was concluded. -/
def Known (w : AuthWorld) (ticket : MaterialTicket) : Prop :=
  (∃ outcome, w.concluded.lookup ticket = some outcome) ∨
    ∃ request, w.materialRequest = some request ∧ request.ticket = ticket

/-- What the request under way has brought was served since it was started. -/
def PendingLoads (ui : AdminUi) (w : AuthWorld) : Prop :=
  ∀ request, w.materialRequest = some request →
    request.ticket.mark ≤ w.served.length ∧ ∀ material,
      request.outcome = some (.ok material) → LoadedSince ui w request.ticket.mark material

/-- What requests brought was served since they were started, every ticket is of a request, and
refreshes are forced apart. -/
structure MaterialInv (ui : AdminUi) (m : AuthMoment) : Prop where
  pending : PendingLoads ui m.world
  concluded : ∀ ticket outcome, (ticket, outcome) ∈ m.world.concluded →
    ticket.mark ≤ m.world.served.length ∧ ∀ material, outcome = .ok material →
      LoadedSince ui m.world ticket.mark material
  known : ∀ c ticket, (c, ticket) ∈ m.collect handedTicket → Known m.world ticket
  forced : Spaced refreshCooldownMs (forcedRefreshes m)
  last : (forcedRefreshes m).head? = m.world.lastRefreshAt

namespace MaterialInv

variable {m : AuthMoment} {c : ℕ} {o : AuthOp} {ans : AuthAns o} {w : AuthWorld}

theorem new (clock : ℕ) (served : List ServedDocuments) :
    MaterialInv ui ⟨AuthWorld.new clock served, []⟩ := by
  constructor <;> simp [AuthWorld.new, Moment.collect, forcedRefreshes, PendingLoads]

/-- A refresh that is not forced changes nothing in the instants. -/
theorem forcedRefreshes_performed (hrefresh : refreshAt o ans = none) :
    forcedRefreshes (m.performed c o ans w) = forcedRefreshes m := by
  rw [forcedRefreshes, Moment.collect_performed_none _ _ _ hrefresh]
  rfl

/-- An operation that hands out no ticket and leaves the requests. -/
theorem frame (h : MaterialInv ui m) (hticket : handedTicket o ans = none)
    (hrefresh : refreshAt o ans = none) (hserved : w.served = m.world.served)
    (hrequest : w.materialRequest = m.world.materialRequest)
    (hconcluded : w.concluded = m.world.concluded)
    (hlast : w.lastRefreshAt = m.world.lastRefreshAt) : MaterialInv ui (m.performed c o ans w) := by
  have hsince : ∀ mark, w.servedSince mark = m.world.servedSince mark := by
    intro mark
    simp only [AuthWorld.servedSince, hserved]
  constructor
  · simp only [PendingLoads, Moment.performed_world, hrequest, hserved, LoadedSince, hsince]
    exact h.pending
  · simp only [Moment.performed_world, hconcluded, hserved, LoadedSince, hsince]
    exact h.concluded
  · rw [Moment.collect_performed_none _ _ _ hticket]
    simp only [Moment.performed_world, Known, hconcluded, hrequest]
    exact h.known
  · rw [forcedRefreshes_performed hrefresh]
    exact h.forced
  · rw [forcedRefreshes_performed hrefresh, Moment.performed_world, hlast]
    exact h.last

/-- An operation that hands out a ticket. -/
theorem hands (h : MaterialInv ui m) (hserved : w.served = m.world.served)
    (hconcluded : w.concluded = m.world.concluded) (hpending : PendingLoads ui w)
    (hnew : ∀ ticket, handedTicket o ans = some ticket → Known w ticket)
    (hold : ∀ ticket, Known m.world ticket → Known w ticket)
    (hforced : Spaced refreshCooldownMs (forcedRefreshes (m.performed c o ans w)))
    (hlast : (forcedRefreshes (m.performed c o ans w)).head? = w.lastRefreshAt) :
    MaterialInv ui (m.performed c o ans w) where
  pending := hpending
  concluded := by
    simp only [Moment.performed_world, hconcluded, hserved, LoadedSince, AuthWorld.servedSince]
    exact h.concluded
  known := by
    intro d ticket hmem
    cases hhands : handedTicket o ans with
    | none =>
      rw [Moment.collect_performed_none _ _ _ hhands] at hmem
      exact hold ticket (h.known d ticket hmem)
    | some ticket' =>
      rw [Moment.collect_performed_some handedTicket m w hhands] at hmem
      obtain heq | hmem := List.mem_cons.mp hmem
      · obtain ⟨-, rfl⟩ := Prod.mk.inj heq
        exact hnew ticket hhands
      · exact hold ticket (h.known d ticket hmem)
  forced := hforced
  last := hlast

/-- The request that is joined is known, and so are those that were known before. -/
theorem known_joinRequest (w : AuthWorld) :
    Known w.joinRequest.2 w.joinRequest.1 ∧
      ∀ ticket, Known w ticket → Known w.joinRequest.2 ticket := by
  obtain ⟨request, hrequest, hjoin⟩ | ⟨hnone, hjoin⟩ := joinRequest_cases w
  · rw [hjoin]
    exact ⟨.inr ⟨request, hrequest, rfl⟩, fun _ h => h⟩
  · rw [hjoin]
    refine ⟨.inr ⟨_, rfl, rfl⟩, fun ticket hknown => ?_⟩
    obtain hconcluded | ⟨request, hrequest, -⟩ := hknown
    · exact .inl hconcluded
    · rw [hnone] at hrequest
      exact nomatch hrequest

/-- A request that is joined has brought what it had brought, or nothing yet. -/
theorem pendingLoads_joinRequest (hpending : PendingLoads ui w) :
    PendingLoads ui w.joinRequest.2 := by
  obtain ⟨request, -, hjoin⟩ | ⟨-, hjoin⟩ := joinRequest_cases w
  · rw [hjoin]
    exact hpending
  · rw [hjoin]
    intro request hrequest
    obtain rfl := Option.some.inj hrequest
    exact ⟨Nat.le_refl _, fun material hmaterial => nomatch hmaterial⟩

/-- Joining a request leaves the rest of the module. -/
theorem joinRequest_leaves (w : AuthWorld) :
    w.joinRequest.2.served = w.served ∧ w.joinRequest.2.concluded = w.concluded ∧
      w.joinRequest.2.lastRefreshAt = w.lastRefreshAt := by
  obtain ⟨request, -, hjoin⟩ | ⟨-, hjoin⟩ := joinRequest_cases w
  · rw [hjoin]
    exact ⟨rfl, rfl, rfl⟩
  · rw [hjoin]
    exact ⟨rfl, rfl, rfl⟩

/-- The newest refresh is a cooldown back when another may be forced. -/
theorem newest_of_canRefresh (h : MaterialInv ui m) {kid : String}
    (hcan : m.world.canRefresh kid = true) (newest : ℕ)
    (hnewest : (forcedRefreshes m).head? = some newest) :
    newest + refreshCooldownMs ≤ m.world.clock := by
  have hlast := h.last.symm.trans hnewest
  simp only [AuthWorld.canRefresh, hlast, Option.all_some, Bool.and_eq_true,
    decide_eq_true_eq] at hcan
  have hpos : 0 < refreshCooldownMs := by
    unfold refreshCooldownMs
    omega
  omega

/-- The decision on a refresh. -/
theorem decide (h : MaterialInv ui m) (kid : String) :
    MaterialInv ui (m.performed c (.decideRefresh kid) (m.world.decideRefresh kid).1
      (m.world.decideRefresh kid).2) := by
  by_cases hcan : m.world.canRefresh kid = true
  · obtain ⟨hserved, hconcluded, hlast⟩ :=
      joinRequest_leaves { m.world with lastRefreshAt := some m.world.clock }
    obtain ⟨hnew, hold⟩ := known_joinRequest { m.world with lastRefreshAt := some m.world.clock }
    have hpending : PendingLoads ui
        { m.world with lastRefreshAt := some m.world.clock }.joinRequest.2 :=
      pendingLoads_joinRequest h.pending
    simp only [AuthWorld.decideRefresh, hcan, ↓reduceIte]
    generalize hjoined : { m.world with lastRefreshAt := some m.world.clock }.joinRequest = joined
      at hserved hconcluded hlast hnew hold hpending
    refine h.hands hserved hconcluded hpending (fun ticket hticket => ?_) hold ?_ ?_
    · obtain rfl := Option.some.inj hticket
      exact hnew
    · rw [forcedRefreshes, Moment.collect_performed_some refreshAt m _ rfl]
      exact h.forced.cons (h.newest_of_canRefresh hcan)
    · rw [forcedRefreshes, Moment.collect_performed_some refreshAt m _ rfl, hlast]
      rfl
  · simp only [AuthWorld.decideRefresh, hcan]
    refine h.hands rfl rfl h.pending (fun ticket hticket => ?_) (fun _ => id) ?_ ?_
    · obtain ⟨request, hrequest, rfl⟩ := Option.map_eq_some_iff.mp hticket
      exact .inr ⟨request, hrequest, rfl⟩
    · rw [forcedRefreshes_performed rfl]
      exact h.forced
    · rw [forcedRefreshes_performed rfl]
      exact h.last

/-- Every operation keeps the invariant. -/
theorem performs (h : MaterialInv ui m) (hstep : AuthStep ui m.world o ans w) :
    MaterialInv ui (m.performed c o ans w) := by
  cases hstep with
  | fresh material hfresh => exact h.frame rfl rfl rfl rfl rfl rfl
  | joined hnone =>
    obtain ⟨hserved, hconcluded, hlast⟩ := joinRequest_leaves m.world
    obtain ⟨hnew, hold⟩ := known_joinRequest m.world
    refine h.hands hserved hconcluded (pendingLoads_joinRequest h.pending)
      (fun ticket hticket => ?_) hold ?_ ?_
    · obtain rfl := Option.some.inj hticket
      exact hnew
    · rw [forcedRefreshes_performed rfl]
      exact h.forced
    · rw [forcedRefreshes_performed rfl, hlast]
      exact h.last
  | awaited ticket outcome hlookup => exact h.frame rfl rfl rfl rfl rfl rfl
  | verified token material refreshed => exact h.frame rfl rfl rfl rfl rfl rfl
  | decided kid => exact h.decide kid
  | remembered kid =>
    refine h.frame rfl rfl ?_ ?_ ?_ ?_ <;> rw [AuthWorld.rememberNegativeKid]

/-- The request under way has its outcome. -/
theorem arrive (h : MaterialInv ui m) {request : MaterialRequest}
    (hloading : m.world.loading = some request)
    {outcome : Except AuthError VerificationMaterial}
    (houtcome : ∀ material, outcome = .ok material →
      LoadedSince ui m.world request.ticket.mark material) :
    MaterialInv ui (m.drifted (m.world.arrive request outcome)) := by
  obtain ⟨hrequest, -⟩ := Option.filter_eq_some_iff.mp hloading
  constructor
  · intro request' hrequest'
    obtain rfl := Option.some.inj hrequest'
    exact ⟨(h.pending request hrequest).1,
      fun material hmaterial => houtcome material (Option.some.inj hmaterial)⟩
  · exact h.concluded
  · intro c ticket hmem
    obtain hconcluded | ⟨request', hrequest', rfl⟩ := h.known c ticket hmem
    · exact .inl hconcluded
    · obtain rfl := Option.some.inj (hrequest.symm.trans hrequest')
      exact .inr ⟨_, rfl, rfl⟩
  · exact h.forced
  · exact h.last

/-- What a request has fetched was served since it was started. -/
theorem loadedSince_of_fetched {w : AuthWorld} {request : MaterialRequest} {discovery jwks : ℕ}
    {material : VerificationMaterial}
    (h : w.fetched ui request discovery jwks = some (.ok material)) :
    LoadedSince ui w request.ticket.mark material := by
  obtain ⟨d, hd, h⟩ := Option.bind_eq_some_iff.mp h
  obtain ⟨k, hk, h⟩ := Option.bind_eq_some_iff.mp h
  exact ⟨d, List.mem_of_getElem? hd, k, List.mem_of_getElem? hk, w.clock, Option.some.inj h⟩

/-- The request under way is concluded. -/
theorem conclude (h : MaterialInv ui m) {request : MaterialRequest}
    {outcome : Except AuthError VerificationMaterial}
    (hrequest : m.world.materialRequest = some request) (houtcome : request.outcome = some outcome) :
    MaterialInv ui (m.drifted { m.world with
      materialRequest := none
      concluded := (request.ticket, outcome) :: m.world.concluded }) := by
  obtain ⟨hmark, hloaded⟩ := h.pending request hrequest
  constructor
  · intro request' hrequest'
    exact nomatch hrequest'
  · intro ticket outcome' hmem
    obtain heq | hmem := List.mem_cons.mp hmem
    · obtain ⟨rfl, rfl⟩ := Prod.mk.inj heq
      exact ⟨hmark, fun material hmaterial => hloaded material (by rw [houtcome, hmaterial])⟩
    · exact h.concluded ticket outcome' hmem
  · intro c ticket hmem
    left
    by_cases hticket : ticket = request.ticket
    · exact ⟨outcome, by simp [hticket]⟩
    · obtain ⟨outcome', hconcluded⟩ | ⟨request', hrequest', rfl⟩ := h.known c ticket hmem
      · refine ⟨outcome', ?_⟩
        have hne : (ticket == request.ticket) = false := by simpa using hticket
        rw [Moment.drifted_world, List.lookup_cons, hne]
        exact hconcluded
      · obtain rfl := Option.some.inj (hrequest.symm.trans hrequest')
        exact absurd rfl hticket
  · exact h.forced
  · exact h.last

/-- The exchange serves other documents. -/
theorem serve (h : MaterialInv ui m) (documents : ServedDocuments) :
    MaterialInv ui (m.drifted { m.world with served := documents :: m.world.served }) := by
  refine ⟨fun request hrequest => ?_, fun ticket outcome hmem => ?_, h.known, h.forced, h.last⟩
  · obtain ⟨hmark, hloaded⟩ := h.pending request hrequest
    exact ⟨Nat.le_succ_of_le hmark, fun material hmaterial =>
      (hloaded material hmaterial).mono (servedSince_serve hmark documents)⟩
  · obtain ⟨hmark, hloaded⟩ := h.concluded ticket outcome hmem
    exact ⟨Nat.le_succ_of_le hmark, fun material hmaterial =>
      (hloaded material hmaterial).mono (servedSince_serve hmark documents)⟩

/-- The world moves on. -/
theorem drifts (h : MaterialInv ui m) {k : AuthDrift}
    (hdrift : AuthWorld.drift ui k m.world = some w) : MaterialInv ui (m.drifted w) := by
  cases k with
  | tick later =>
    obtain ⟨-, heq⟩ := Option.ite_none_right_eq_some.mp hdrift
    cases heq
    exact ⟨h.pending, h.concluded, h.known, h.forced, h.last⟩
  | serve documents =>
    cases hdrift
    exact h.serve documents
  | load discovery jwks =>
    obtain ⟨request, hloading, hdrift⟩ := Option.bind_eq_some_iff.mp hdrift
    obtain ⟨outcome, hfetched, heq⟩ := Option.bind_eq_some_iff.mp hdrift
    cases heq
    apply h.arrive hloading
    rintro material rfl
    exact loadedSince_of_fetched hfetched
  | fail e =>
    obtain ⟨request, hloading, heq⟩ := Option.bind_eq_some_iff.mp hdrift
    cases heq
    exact h.arrive hloading (by simp)
  | conclude =>
    obtain ⟨request, hrequest, hdrift⟩ := Option.bind_eq_some_iff.mp hdrift
    obtain ⟨outcome, houtcome, heq⟩ := Option.bind_eq_some_iff.mp hdrift
    cases heq
    exact h.conclude hrequest houtcome

end MaterialInv

/-! ## What a call performs -/

/-- What a call performs: it awaits only what it was handed, verifies its own token, and checks it
again only with what a request brought that its decision on a refresh handed to it. No call performs
more than seven operations. -/
def AuthReady (ui : AdminUi) (token : String) (past : AuthPast) (o : AuthOp) : Prop :=
  past.length < 7 ∧
  match o with
  | .getMaterial => True
  | .awaitMaterial ticket => ∃ e ∈ past, handedTicket e.1 e.2 = some ticket
  | .verify token' _ none => token' = token
  | .verify token' material (some ticket) => token' = token ∧
      ⟨.awaitMaterial ticket, .ok material⟩ ∈ past ∧
      ∃ kid decision, ⟨.decideRefresh kid, decision⟩ ∈ past ∧ decision.ticket = some ticket
  | .decideRefresh kid => ∃ header, ui.parseBoundedHeader token = .ok header ∧ kid = header.kid
  | .rememberNegativeKid _ => True

/-- Why a call for a token with a good header fails: the material does not list the algorithm, a
request failed, the first failure is none that a rotation would explain, no refresh is to be had, or
the token does not pass the second check. -/
inductive Hindrance (token : String) (header : UiTokenHeader) (past : AuthPast) : Prop
  | freshLacks (material : VerificationMaterial) (hmem : ⟨.getMaterial, .inl material⟩ ∈ past)
      (hlacks : material.discovery.algorithms.contains header.alg = false)
  | loadedLacks (ticket : MaterialTicket) (material : VerificationMaterial)
      (hmem : ⟨.awaitMaterial ticket, .ok material⟩ ∈ past)
      (hlacks : material.discovery.algorithms.contains header.alg = false)
  | requestFailed (ticket : MaterialTicket) (e : AuthError)
      (hmem : ⟨.awaitMaterial ticket, .error e⟩ ∈ past)
  | noRotation (material : VerificationMaterial) (e : AuthError)
      (hmem : ⟨.verify token material none, .error e⟩ ∈ past)
      (hother : rotationFailure header.kid material e = false)
  | denied (kid : String) (decision : RefreshDecision) (hmem : ⟨.decideRefresh kid, decision⟩ ∈ past)
      (hnone : decision.ticket = none)
  | stillFails (material : VerificationMaterial) (ticket : MaterialTicket) (e : AuthError)
      (hmem : ⟨.verify token material (some ticket), .error e⟩ ∈ past)

/-- How a call ends: one that fails has a token without a good header or was hindered. -/
def AuthPost (ui : AdminUi) (token : String) (past : AuthPast) : Except AuthError Value → Prop
  | .ok _ => past.length ≤ 7
  | .error _ => past.length ≤ 7 ∧ ∀ header, checkTokenLength token = .ok () →
      ui.parseBoundedHeader token = .ok header → Hindrance token header past

section Obeys

variable {token : String} {header : UiTokenHeader} {past : AuthPast}

/-- The header of a token is the one that was read. -/
theorem hindrance_of_header (hheader : ui.parseBoundedHeader token = .ok header)
    (h : Hindrance token header past) (header' : UiTokenHeader)
    (hheader' : ui.parseBoundedHeader token = .ok header') : Hindrance token header' past := by
  obtain rfl := Except.ok.inj (hheader.symm.trans hheader')
  exact h

theorem afterDecision_obeys {kid : String} {e : AuthError} {decision : RefreshDecision}
    (hheader : ui.parseBoundedHeader token = .ok header)
    (hdecision : ⟨.decideRefresh kid, decision⟩ ∈ past) (hlength : past.length ≤ 4) :
    (afterDecision token header.kid e decision).Obeys (AuthReady ui token) (AuthPost ui token)
      past := by
  have hlater : ∀ {past'}, past <:+ past' → ⟨.decideRefresh kid, decision⟩ ∈ past' :=
    fun hsuffix => hsuffix.mem hdecision
  cases decision with
  | denied pending =>
    cases pending with
    | none =>
      refine ⟨by omega, fun header' _ hheader' => hindrance_of_header hheader ?_ header' hheader'⟩
      exact .denied kid _ hdecision rfl
    | some ticket =>
      refine ⟨⟨by omega, _, hdecision, rfl⟩, fun outcome => ?_⟩
      cases outcome with
      | error e' =>
        refine ⟨by simp; omega, fun header' _ hheader' =>
          hindrance_of_header hheader ?_ header' hheader'⟩
        exact .requestFailed ticket e' (List.mem_cons_self ..)
      | ok material =>
        refine ⟨⟨by simp; omega, rfl, List.mem_cons_self .., kid, _,
          hlater (List.suffix_cons ..), rfl⟩, fun answer => ?_⟩
        cases answer with
        | ok payload => show _ ≤ 7; simp; omega
        | error e' =>
          refine ⟨by simp; omega, fun header' _ hheader' =>
            hindrance_of_header hheader ?_ header' hheader'⟩
          exact .stillFails material ticket e' (List.mem_cons_self ..)
  | forced ticket instant =>
    refine ⟨⟨by omega, _, hdecision, rfl⟩, fun outcome => ?_⟩
    cases outcome with
    | error e' =>
      refine ⟨by simp; omega, fun header' _ hheader' =>
        hindrance_of_header hheader ?_ header' hheader'⟩
      exact .requestFailed ticket e' (List.mem_cons_self ..)
    | ok refreshed =>
      refine ⟨⟨by simp; omega, rfl, List.mem_cons_self .., kid, _,
        hlater (List.suffix_cons ..), rfl⟩, fun answer => ?_⟩
      cases answer with
      | ok payload => show _ ≤ 7; simp; omega
      | error e' =>
        refine ⟨⟨by simp; omega, trivial⟩, fun _ => ⟨by simp; omega, fun header' _ hheader' =>
          hindrance_of_header hheader ?_ header' hheader'⟩⟩
        exact .stillFails refreshed ticket e' (by simp)

theorem concludeFirst_obeys {material : VerificationMaterial} {answer : Except AuthError Value}
    (hheader : ui.parseBoundedHeader token = .ok header) (hlength : past.length ≤ 2) :
    (concludeFirst token header.kid material answer).Obeys (AuthReady ui token) (AuthPost ui token)
      (⟨.verify token material none, answer⟩ :: past) := by
  cases answer with
  | ok payload => show _ ≤ 7; simp; omega
  | error e =>
    by_cases hrotation : rotationFailure header.kid material e = true
    · simp only [concludeFirst, hrotation, ↓reduceIte]
      refine ⟨⟨by simp; omega, header, hheader, rfl⟩, fun decision => ?_⟩
      exact afterDecision_obeys hheader (List.mem_cons_self ..) (by simp; omega)
    · simp only [concludeFirst, hrotation]
      refine ⟨by simp; omega, fun header' _ hheader' =>
        hindrance_of_header hheader ?_ header' hheader'⟩
      exact .noRotation material e (List.mem_cons_self ..) (by simpa using hrotation)

/-- With the material at hand, the token is checked. -/
theorem checked_obeys {material : VerificationMaterial}
    (hheader : ui.parseBoundedHeader token = .ok header) (hlength : past.length ≤ 2)
    (hlacks : material.discovery.algorithms.contains header.alg = false →
      Hindrance token header past) :
    ((Program.ofExcept (throwUnless (material.discovery.algorithms.contains header.alg)
        "JWT algorithm is not allowed") : AuthCall Unit) >>= fun _ =>
      Program.ask (AuthOp.verify token material none) >>=
        concludeFirst token header.kid material).Obeys (AuthReady ui token) (AuthPost ui token)
      past := by
  refine Program.obeys_ofExcept_bind (fun _ _ => ?_) fun e he => ?_
  · exact ⟨⟨by omega, rfl⟩, fun answer => concludeFirst_obeys hheader hlength⟩
  · refine ⟨by omega, fun header' _ hheader' => hindrance_of_header hheader ?_ header' hheader'⟩
    apply hlacks
    by_contra hlists
    rw [throwUnless, if_pos (by simpa using hlists)] at he
    exact nomatch he

/-- The material at hand after at most two operations: where it does not list the algorithm, the
call is hindered, and where there is none, a request has failed. -/
def AtHand (token : String) (header : UiTokenHeader) (past : AuthPast) :
    Except AuthError VerificationMaterial → Prop
  | .ok material => past.length ≤ 2 ∧
      (material.discovery.algorithms.contains header.alg = false → Hindrance token header past)
  | .error _ => past.length ≤ 2 ∧ Hindrance token header past

theorem getVerificationMaterial_obeys :
    getVerificationMaterial.Obeys (AuthReady ui token) (AtHand token header) [] := by
  refine ⟨⟨by simp, trivial⟩, fun found => ?_⟩
  cases found with
  | inl material => exact ⟨by simp, .freshLacks material (List.mem_cons_self ..)⟩
  | inr ticket =>
    refine ⟨⟨by simp, _, List.mem_cons_self .., rfl⟩, fun outcome => ?_⟩
    cases outcome with
    | error e => exact ⟨by simp, .requestFailed ticket e (List.mem_cons_self ..)⟩
    | ok material => exact ⟨by simp, .loadedLacks ticket material (List.mem_cons_self ..)⟩

/-- Every call performs only what is ready and ends as stated. -/
theorem verifyAccessToken_obeys (ui : AdminUi) (token : String) :
    (ui.verifyAccessToken token).Obeys (AuthReady ui token) (AuthPost ui token) [] := by
  unfold AdminUi.verifyAccessToken
  cases hlength : checkTokenLength token with
  | error e =>
    refine ⟨by simp, fun header' hlength' _ => ?_⟩
    rw [hlength] at hlength'
    exact nomatch hlength'
  | ok _ =>
    cases hheader : ui.parseBoundedHeader token with
    | error e =>
      refine ⟨by simp, fun header' _ hheader' => ?_⟩
      rw [hheader] at hheader'
      exact nomatch hheader'
    | ok header =>
      simp only [Program.ofExcept_ok, Program.done_bind]
      have hmaterial : getVerificationMaterial.Obeys (AuthReady ui token) (AtHand token header) [] :=
        getVerificationMaterial_obeys
      refine hmaterial.bind ?_ ?_
      · rintro past material ⟨hpast, hlacks⟩
        exact checked_obeys hheader hpast hlacks
      · rintro past e ⟨hpast, hindrance⟩
        exact ⟨by omega, fun header' _ => hindrance_of_header hheader hindrance header'⟩

end Obeys

/-! ## The condition -/

/-- The token is valid under whatever was served since it was presented. -/
def StillValid (ui : AdminUi) (token : String) (mark : ℕ) (w : AuthWorld) : Prop :=
  ∀ d ∈ w.servedSince mark, ∀ k ∈ w.servedSince mark, ∀ material,
    ui.loadVerificationMaterial d.discovery k.jwks w.clock = .ok material →
    ∃ payload, ui.verifyWithMaterial token material w.clock = .ok payload

/-- Nothing stands in the way of an operation of the call: the material it is handed lists the
algorithm of the token and no request it awaits has failed; a token that does not pass the first
check has an unknown key identifier or a signature that does not match; and when the refresh is
decided, the key identifier is not remembered, a request under way was started since the
presentation, and one is under way if another refresh was forced since. -/
def Unhindered (ui : AdminUi) (token : String) (header : UiTokenHeader) (mark : ℕ)
    (last : Option ℕ) (w : AuthWorld) : AuthOp → Prop
  | .getMaterial => ∀ material, w.freshMaterial = some material →
      material.discovery.algorithms.contains header.alg = true
  | .awaitMaterial ticket => ∀ outcome, w.concluded.lookup ticket = some outcome →
      ∃ material, outcome = .ok material ∧
        material.discovery.algorithms.contains header.alg = true
  | .verify _ material none => ∀ e, ui.verifyWithMaterial token material w.clock = .error e →
      rotationFailure header.kid material e = true
  | .verify _ _ (some _) => True
  | .decideRefresh kid => w.negativeKids.lookup kid = none ∧
      (∀ request, w.materialRequest = some request → mark ≤ request.ticket.mark) ∧
      (w.lastRefreshAt = last ∨ w.materialRequest ≠ none)
  | .rememberNegativeKid _ => True

/-- The steps of call `c` find its token still valid and nothing in their way. -/
def Clear (ui : AdminUi) (token : String) (header : UiTokenHeader) (mark : ℕ) (last : Option ℕ)
    (c : ℕ) (m : AuthMoment) (d : ℕ) (_x : Unit) (o : AuthOp) : Prop :=
  d = c → StillValid ui token mark m.world ∧ Unhindered ui token header mark last m.world o

/-- What an operation of a call that is not hindered was answered. -/
def Unfailing (ui : AdminUi) (header : UiTokenHeader) (mark : ℕ) (w : AuthWorld) :
    Performed AuthAns → Prop
  | ⟨.getMaterial, .inl material⟩ => material.discovery.algorithms.contains header.alg = true
  | ⟨.getMaterial, .inr _⟩ => True
  | ⟨.awaitMaterial ticket, outcome⟩ => ticket.mark ≤ w.served.length ∧ ∃ material,
      outcome = .ok material ∧ material.discovery.algorithms.contains header.alg = true ∧
        LoadedSince ui w ticket.mark material
  | ⟨.verify _ material none, answer⟩ => ∀ e, answer = .error e →
      rotationFailure header.kid material e = true
  | ⟨.verify _ _ (some _), answer⟩ => ∀ e, answer ≠ .error e
  | ⟨.decideRefresh _, decision⟩ => ∃ ticket, decision.ticket = some ticket ∧ mark ≤ ticket.mark
  | ⟨.rememberNegativeKid _, _⟩ => True

section Unfailing

variable {token : String} {header : UiTokenHeader} {mark : ℕ} {last : Option ℕ}
  {w w' : AuthWorld}

/-- What a call was answered stays as it was when more is served. -/
theorem Unfailing.mono {e : Performed AuthAns} (h : Unfailing ui header mark w e)
    (hlength : w.served.length ≤ w'.served.length)
    (hsub : ∀ mark, mark ≤ w.served.length → w.servedSince mark ⊆ w'.servedSince mark) :
    Unfailing ui header mark w' e := by
  obtain ⟨o, ans⟩ := e
  cases o with
  | awaitMaterial ticket =>
    obtain ⟨hmark, material, rfl, hlists, hloaded⟩ := h
    exact ⟨hmark.trans hlength, material, rfl, hlists, hloaded.mono (hsub _ hmark)⟩
  | getMaterial => cases ans <;> exact h
  | verify t material refreshed => cases refreshed <;> exact h
  | decideRefresh kid => exact h
  | rememberNegativeKid kid => trivial

/-- A call that was never hindered has no reason to fail. -/
theorem not_hindrance {past : AuthPast} (h : ∀ e ∈ past, Unfailing ui header mark w e) :
    ¬ Hindrance token header past := by
  intro hindrance
  cases hindrance with
  | freshLacks material hmem hlacks =>
    have hlists : material.discovery.algorithms.contains header.alg = true := h _ hmem
    rw [hlacks] at hlists
    exact nomatch hlists
  | loadedLacks ticket material hmem hlacks =>
    obtain ⟨-, material', hmaterial, hlists, -⟩ := h _ hmem
    obtain rfl := Except.ok.inj hmaterial
    rw [hlacks] at hlists
    exact nomatch hlists
  | requestFailed ticket e hmem =>
    obtain ⟨-, material, hmaterial, -⟩ := h _ hmem
    exact nomatch hmaterial
  | noRotation material e hmem hother =>
    have hrotation := h _ hmem e rfl
    rw [hother] at hrotation
    exact nomatch hrotation
  | denied kid decision hmem hnone =>
    obtain ⟨ticket, hticket, -⟩ := h _ hmem
    rw [hnone] at hticket
    exact nomatch hticket
  | stillFails material ticket e hmem => exact h _ hmem e rfl

/-- The request that is joined was started no earlier than the presentation. -/
theorem mark_le_joinRequest (hserved : mark ≤ w.served.length)
    (hrequest : ∀ request, w.materialRequest = some request → mark ≤ request.ticket.mark) :
    mark ≤ w.joinRequest.1.mark := by
  obtain ⟨request, hsome, hjoin⟩ | ⟨-, hjoin⟩ := joinRequest_cases w
  · rw [hjoin]
    exact hrequest request hsome
  · rw [hjoin]
    exact hserved

/-- The decision on a refresh hands out a request that was started since the presentation. -/
theorem decideRefresh_unfailing {kid : String} (hserved : mark ≤ w.served.length)
    (hcooled : ∀ instant, last = some instant → refreshCooldownMs ≤ w.clock - instant)
    (hclear : Unhindered ui token header mark last w (.decideRefresh kid)) :
    ∃ ticket, (w.decideRefresh kid).1.ticket = some ticket ∧ mark ≤ ticket.mark := by
  obtain ⟨hkid, hrequest, hsince⟩ := hclear
  by_cases hcan : w.canRefresh kid = true
  · simp only [AuthWorld.decideRefresh, hcan, ↓reduceIte]
    exact ⟨_, rfl, mark_le_joinRequest (w := { w with lastRefreshAt := some w.clock }) hserved
      hrequest⟩
  · simp only [AuthWorld.decideRefresh, hcan]
    cases hpending : w.materialRequest with
    | some request => exact ⟨request.ticket, rfl, hrequest request hpending⟩
    | none =>
      -- no other refresh was forced, so the cooldown has passed
      have hlast : w.lastRefreshAt = last := hsince.resolve_right fun hne => hne hpending
      refine absurd ?_ hcan
      rw [AuthWorld.canRefresh, hkid, hlast]
      cases last with
      | none => rfl
      | some instant => simpa using hcooled instant rfl

/-- What a request brought since the presentation passes the check. -/
theorem verify_of_loadedSince {material : VerificationMaterial}
    (hvalid : StillValid ui token mark w) (hloaded : LoadedSince ui w mark material) :
    ∃ payload, ui.verifyWithMaterial token material w.clock = .ok payload := by
  obtain ⟨d, hd, k, hk, now, hload⟩ := hloaded
  obtain ⟨payload, hpayload⟩ := hvalid d hd k hk _ (load_at w.clock hload)
  exact ⟨payload, hpayload⟩

end Unfailing

/-- An operation serves nothing and takes no time. -/
theorem AuthStep.keeps {o : AuthOp} {w w' : AuthWorld} {ans : AuthAns o}
    (h : AuthStep ui w o ans w') : w'.served = w.served ∧ w'.clock = w.clock := by
  have hjoin : ∀ v : AuthWorld, v.joinRequest.2.served = v.served ∧
      v.joinRequest.2.clock = v.clock := by
    intro v
    obtain ⟨request, -, hjoin⟩ | ⟨-, hjoin⟩ := joinRequest_cases v <;> rw [hjoin] <;>
      exact ⟨rfl, rfl⟩
  cases h with
  | joined hnone => exact hjoin w
  | decided kid =>
    rw [AuthWorld.decideRefresh]
    by_cases hcan : w.canRefresh kid = true
    · simp only [hcan, ↓reduceIte]
      exact hjoin { w with lastRefreshAt := some w.clock }
    · simp only [hcan]
      exact ⟨rfl, rfl⟩
  | remembered kid =>
    rw [AuthWorld.rememberNegativeKid]
    exact ⟨rfl, rfl⟩
  | _ => exact ⟨rfl, rfl⟩

/-- A call that was presented when the cooldown had passed, and was never hindered since. -/
structure Recovering (ui : AdminUi) (header : UiTokenHeader) (mark : ℕ) (last : Option ℕ) (c : ℕ)
    (m : AuthMoment) : Prop where
  served : mark ≤ m.world.served.length
  cooled : ∀ instant, last = some instant → refreshCooldownMs ≤ m.world.clock - instant
  past : ∀ e ∈ m.past c, Unfailing ui header mark m.world e

namespace Recovering

variable {token : String} {header : UiTokenHeader} {mark : ℕ} {last : Option ℕ} {c d : ℕ}
  {m : AuthMoment} {o : AuthOp} {ans : AuthAns o} {w : AuthWorld}

/-- What an operation of the call itself is answered. -/
theorem unfailing (h : Recovering ui header mark last c m) (hinv : MaterialInv ui m)
    (hready : AuthReady ui token (m.past c) o)
    (hclear : StillValid ui token mark m.world ∧ Unhindered ui token header mark last m.world o)
    (hstep : AuthStep ui m.world o ans w) : Unfailing ui header mark m.world ⟨o, ans⟩ := by
  obtain ⟨hvalid, hclear⟩ := hclear
  cases hstep with
  | fresh material hfresh => exact hclear material hfresh
  | joined hnone => trivial
  | awaited ticket outcome hlookup =>
    obtain ⟨material, rfl, hlists⟩ := hclear outcome hlookup
    obtain ⟨before, after, hsplit, -⟩ := List.lookup_eq_some_iff.mp hlookup
    obtain ⟨hmark, hloaded⟩ := hinv.concluded ticket (.ok material) (by simp [hsplit])
    exact ⟨hmark, material, rfl, hlists, hloaded material rfl⟩
  | verified token' material refreshed =>
    cases refreshed with
    | none =>
      obtain ⟨-, rfl⟩ := hready
      exact hclear
    | some ticket =>
      obtain ⟨-, rfl, hawaited, kid, decision, hdecided, hticket⟩ := hready
      obtain ⟨ticket', hticket', hmark⟩ := h.past _ hdecided
      obtain rfl := Option.some.inj (hticket.symm.trans hticket')
      obtain ⟨-, material', hmaterial, -, hloaded⟩ := h.past _ hawaited
      obtain rfl := Except.ok.inj hmaterial
      obtain ⟨payload, hpayload⟩ :=
        verify_of_loadedSince hvalid (hloaded.mono (servedSince_subset hmark))
      show ∀ e, ui.verifyWithMaterial token' material m.world.clock ≠ .error e
      rw [hpayload]
      exact fun e he => nomatch he
  | decided kid => exact decideRefresh_unfailing h.served h.cooled hclear
  | remembered kid => trivial

/-- Every operation of a call that finds nothing in its way, and of any other call. -/
theorem performs (h : Recovering ui header mark last c m) (hinv : MaterialInv ui m) {x : Unit}
    (hready : d = c → AuthReady ui token (m.past d) o)
    (hclear : Clear ui token header mark last c m d x o) (hstep : AuthStep ui m.world o ans w) :
    Recovering ui header mark last c (m.performed d o ans w) := by
  obtain ⟨hserved, hclock⟩ := hstep.keeps
  have hkeeps : ∀ e, Unfailing ui header mark m.world e → Unfailing ui header mark w e := by
    intro e he
    apply he.mono (by rw [hserved])
    intro mark' _
    rw [AuthWorld.servedSince, AuthWorld.servedSince, hserved]
    exact List.Subset.refl _
  refine ⟨by rw [Moment.performed_world, hserved]; exact h.served,
    by rw [Moment.performed_world, hclock]; exact h.cooled, fun e he => hkeeps e ?_⟩
  by_cases hdc : d = c
  · subst hdc
    rw [Moment.past_performed_self] at he
    obtain rfl | he := List.mem_cons.mp he
    · exact h.unfailing hinv (hready rfl) (hclear rfl) hstep
    · exact h.past e he
  · rw [Moment.past_performed_other _ hdc] at he
    exact h.past e he

/-- The world moves on. -/
theorem drifts (h : Recovering ui header mark last c m) {k : AuthDrift}
    (hdrift : AuthWorld.drift ui k m.world = some w) :
    Recovering ui header mark last c (m.drifted w) := by
  cases k with
  | tick later =>
    obtain ⟨hle, heq⟩ := Option.ite_none_right_eq_some.mp hdrift
    cases heq
    exact ⟨h.served, fun instant hlast => (h.cooled instant hlast).trans (Nat.sub_le_sub_right hle _),
      h.past⟩
  | serve documents =>
    cases hdrift
    exact ⟨Nat.le_succ_of_le h.served, h.cooled, fun e he => (h.past e he).mono
      (Nat.le_succ _) fun mark' hmark => servedSince_serve hmark documents⟩
  | load discovery jwks =>
    obtain ⟨request, hloading, hdrift⟩ := Option.bind_eq_some_iff.mp hdrift
    obtain ⟨outcome, hfetched, heq⟩ := Option.bind_eq_some_iff.mp hdrift
    cases heq
    exact ⟨h.served, h.cooled, h.past⟩
  | fail e =>
    obtain ⟨request, hloading, heq⟩ := Option.bind_eq_some_iff.mp hdrift
    cases heq
    exact ⟨h.served, h.cooled, h.past⟩
  | conclude =>
    obtain ⟨request, hrequest, hdrift⟩ := Option.bind_eq_some_iff.mp hdrift
    obtain ⟨outcome, houtcome, heq⟩ := Option.bind_eq_some_iff.mp hdrift
    cases heq
    exact ⟨h.served, h.cooled, h.past⟩

end Recovering

/-! ## The claim -/

/-- The rules of the requests, which every run keeps. -/
def materialProtocol (ui : AdminUi) : Protocol (authSemantics ui) (AuthReady ui) where
  inv := MaterialInv ui
  allowed _ _ _ _ := True
  begins h _ := ⟨h.pending, h.concluded, h.known, h.forced, h.last⟩
  performs h _ _ _ hexec := h.performs (.of_exec hexec)
  ends h _ := ⟨h.pending, h.concluded, h.known, h.forced, h.last⟩
  drifts h hdrift := h.drifts hdrift

/-- The rules of a call that finds nothing in its way. -/
def recoveryProtocol (ui : AdminUi) (token : String) (header : UiTokenHeader) (mark : ℕ)
    (last : Option ℕ) (c : ℕ) : Protocol (authSemantics ui) (AuthReady ui) where
  inv m := MaterialInv ui m ∧ Recovering ui header mark last c m ∧ .began c token ∈ m.history
  allowed := Clear ui token header mark last c
  begins h hunseen := ⟨(materialProtocol ui).begins (m := _) h.1 hunseen,
    ⟨h.2.1.served, h.2.1.cooled, h.2.1.past⟩, List.mem_cons_of_mem _ h.2.2⟩
  performs := by
    rintro m d i x o ans w ⟨hinv, hrecovering, hbegan⟩ hrunning hready hclear hexec
    have hstep : AuthStep ui m.world o ans w := .of_exec hexec
    refine ⟨hinv.performs hstep, ?_, List.mem_cons_of_mem _ hbegan⟩
    refine hrecovering.performs (x := x) hinv (fun hdc => ?_) hclear hstep
    subst hdc
    obtain rfl := (hrunning.asked token).mp hbegan
    exact hready
  ends h hrunning := ⟨(materialProtocol ui).ends (m := _) h.1 hrunning,
    ⟨h.2.1.served, h.2.1.cooled, h.2.1.past⟩, List.mem_cons_of_mem _ h.2.2⟩
  drifts h hdrift := ⟨h.1.drifts hdrift, h.2.1.drifts hdrift, h.2.2⟩

/-- A token is accepted: its verification does not fail, it performs at most seven operations, and
it goes on at any time but while the request it awaits is under way. -/
structure Accepts (ui : AdminUi) (c : ℕ) (token : String) (q : AuthPool) : Prop where
  notRejected : ∀ e, ¬ q.Failed c token e
  bounded : (q.past c).length ≤ 7
  goesOn : ∀ call, q.calls c = some call → call.rest.finished = false →
    (∃ q', (authSystem ui).step q (.advance c ()) = some q') ∨
      ∃ ticket next request, call.rest = .perform (.awaitMaterial ticket) next ∧
        q.world.materialRequest = some request ∧ request.ticket = ticket

section Claim

variable {p q : AuthPool} {c : ℕ} {token : String}

/-- Every operation but an await can be performed at any time. -/
theorem exec_isSome (w : AuthWorld) (o : AuthOp)
    (h : ∀ ticket, o = .awaitMaterial ticket → ∃ outcome, w.concluded.lookup ticket = some outcome) :
    ∃ r, AuthWorld.exec ui o w = some r := by
  cases o with
  | getMaterial => cases hfresh : w.freshMaterial <;> simp [AuthWorld.exec, hfresh]
  | awaitMaterial ticket =>
    obtain ⟨outcome, hlookup⟩ := h ticket rfl
    exact ⟨_, by simp only [AuthWorld.exec, hlookup]; rfl⟩
  | verify token material refreshed => exact ⟨_, rfl⟩
  | decideRefresh kid => exact ⟨_, rfl⟩
  | rememberNegativeKid kid => exact ⟨_, rfl⟩

/-- A call that has not finished goes on, unless the request it awaits is under way. -/
theorem goesOn_of_known (hd : Disciplined (AuthReady ui) (AuthPost ui) q)
    (hinv : MaterialInv ui q.toMoment) {call : Call AuthAns String AuthError Value}
    (hcall : q.calls c = some call) (hrest : call.rest.finished = false) :
    (∃ q', (authSystem ui).step q (.advance c ()) = some q') ∨
      ∃ ticket next request, call.rest = .perform (.awaitMaterial ticket) next ∧
        q.world.materialRequest = some request ∧ request.ticket = ticket := by
  obtain ⟨request, rest⟩ := call
  cases rest with
  | done a => exact nomatch hrest
  | raise e => exact nomatch hrest
  | perform o next =>
    by_cases hconcluded : ∀ ticket, o = .awaitMaterial ticket →
        ∃ outcome, q.world.concluded.lookup ticket = some outcome
    · obtain ⟨r, hr⟩ : ∃ r, AuthWorld.exec ui o q.world = some r :=
        exec_isSome q.world o hconcluded
      left
      simp [Pool.system, Pool.step, hcall, authSemantics, hr]
    · simp only [not_forall] at hconcluded
      obtain ⟨ticket, rfl, hnone⟩ := hconcluded
      obtain ⟨-, e, hmem, hhanded⟩ := hd.ready_next hcall
      have hknown := hinv.known c ticket (Moment.mem_collect_of_past hmem hhanded)
      obtain ⟨pending, hpending⟩ := hknown.resolve_left hnone
      exact .inr ⟨ticket, next, pending, rfl, hpending⟩

/-- What a call has performed is bounded. -/
theorem length_past_le (hd : Disciplined (AuthReady ui) (AuthPost ui) q) :
    (q.past c).length ≤ 7 := by
  cases hcall : q.calls c with
  | none =>
    rw [(hd.unseen c hcall).past]
    exact Nat.zero_le _
  | some call =>
    obtain ⟨request, rest⟩ := call
    have hobeys := hd.obeys c _ hcall
    cases rest with
    | done payload => exact hobeys
    | raise e => exact hobeys.1
    | perform o next => exact Nat.le_of_lt hobeys.1.1

/-- A call that has begun is disciplined and keeps the rules of the requests. -/
theorem materialInv_of_run {clock : ℕ} {served : List ServedDocuments} {as : List AuthAct}
    (hrun : (authSystem ui).Run System.anyStep (Pool.initial (AuthWorld.new clock served)) as p) :
    Disciplined (AuthReady ui) (AuthPost ui) p ∧ MaterialInv ui p.toMoment := by
  have hrun' : (authSystem ui).Run (Pool.Under (materialProtocol ui).allowed)
      (Pool.initial (AuthWorld.new clock served)) as p := hrun.mono fun _ _ _ _ _ _ _ => trivial
  exact ⟨.run (verifyAccessToken_obeys ui) hrun' (.initial _),
    (materialProtocol ui).run (verifyAccessToken_obeys ui) hrun' (.initial _) (.new clock served)⟩

end Claim

/-- **Recovery from a rotation**: refreshes are forced a cooldown apart in every run; and a token of
good form that is presented a cooldown after the last one is accepted in every run in which its
verification finds it valid under what is served since and nothing in its way. -/
theorem recovers_from_rotation (ui : AdminUi) (clock : ℕ) (served : List ServedDocuments) :
    (∀ (p : AuthPool) (as : List AuthAct), (authSystem ui).Run System.anyStep
      (Pool.initial (AuthWorld.new clock served)) as p →
        Spaced refreshCooldownMs (forcedRefreshes p.toMoment)) ∧
    ∀ (p p' q : AuthPool) (as bs : List AuthAct) (c : ℕ) (token : String) (header : UiTokenHeader),
      (authSystem ui).Run System.anyStep (Pool.initial (AuthWorld.new clock served)) as p →
      checkTokenLength token = .ok () → ui.parseBoundedHeader token = .ok header →
      (∀ last, p.world.lastRefreshAt = some last → refreshCooldownMs ≤ p.world.clock - last) →
      (authSystem ui).step p (.begin c token) = some p' →
      (authSystem ui).Run (Pool.Under
        (Clear ui token header p.world.served.length p.world.lastRefreshAt c)) p' bs q →
      Accepts ui c token q := by
  refine ⟨fun p as hrun => (materialInv_of_run hrun).2.forced, ?_⟩
  intro p p' q as bs c token header hrun hlength hheader hcooled hbegin hlater
  have hbegun := hrun.trans (.single trivial hbegin)
  obtain ⟨hd, hinv⟩ := materialInv_of_run hbegun
  obtain ⟨c', i, hact, hnone, hm, -⟩ | ⟨c', x, i, o, next, ans, w, hact, -⟩ | ⟨k, w, hact, -⟩ :=
    Pool.step_cases hbegin
  · obtain ⟨rfl, rfl⟩ : c = c' ∧ token = i := by simpa using hact
    have hpast : p'.toMoment.past c = [] := by
      rw [hm, Disciplined.settle_past, Moment.past_begin]
      exact ((materialInv_of_run hrun).1.unseen c hnone).past
    have hworld : p'.world = p.world := by
      rw [hm, Disciplined.settle_world, Moment.begin_world]
    have hbegan : .began c token ∈ p'.history := by
      rw [hm, Disciplined.mem_settle_history]
      exact .inr (List.mem_cons_self ..)
    have hrecovering : Recovering ui header p.world.served.length p.world.lastRefreshAt c
        p'.toMoment := by
      refine ⟨by rw [hworld], by rw [hworld]; exact hcooled, ?_⟩
      rw [hpast]
      exact fun e he => nomatch he
    obtain ⟨hinv', hrecovering', -⟩ :=
      (recoveryProtocol ui token header p.world.served.length p.world.lastRefreshAt c).run
        (verifyAccessToken_obeys ui) hlater hd ⟨hinv, hrecovering, hbegan⟩
    have hd' : Disciplined (AuthReady ui) (AuthPost ui) q :=
      .run (verifyAccessToken_obeys ui) hlater hd
    refine ⟨fun e hfailed => ?_, length_past_le hd', fun call => goesOn_of_known hd' hinv'⟩
    exact not_hindrance hrecovering'.past ((hd'.failed hfailed).2 header hlength hheader)
  · exact nomatch hact
  · exact nomatch hact

/-! ## A key that is looked for before it is published -/

/-- A token of the key with the given header segment. -/
def sampleToken (header : String) : String :=
  header ++ ".eyJpc3MiOiJodHRwczovL3giLCJzdWIiOiJzIiwiYXVkIjoidWkiLCJpYXQiOjEwMDAsImV4cCI6MjAwMH0.c2ln"

def oldToken : String := sampleToken "eyJhbGciOiJFZERTQSIsImtpZCI6Im9sZCJ9"

def newToken : String := sampleToken "eyJhbGciOiJFZERTQSIsImtpZCI6Im5ldyJ9"

/-- The key identifier of the two tokens. -/
def sampleKid (token : String) : Option String :=
  if token = oldToken then some "old" else if token = newToken then some "new" else none

/-- The packages, as they read the two tokens and verify them with a set that has their key. -/
def sampleUi : AdminUi where
  exchangeUrl := "https://x"
  exchangeIssuer := "https://x"
  audience := "ui"
  url _ := some ⟨"https:", "", "", "", "https://x", "https://x/jwks"⟩
  decodeProtectedHeader token :=
    match sampleKid token with
    | some kid => .ok (.object [("alg", .string "EdDSA"), ("kid", .string kid)])
    | none => .error (.jose "ERR_JWS_INVALID")
  jwtVerify keys _ _ token :=
    if keys.any (fun key => (sampleKid token).any (key.hasText "kid")) then
      .ok (.object [("iss", .string "https://x"), ("sub", .string "s"), ("aud", .string "ui"),
        ("iat", .number 1000 0), ("exp", .number 2000 0)])
    else .error (.jose "ERR_JWKS_NO_MATCHING_KEY")

/-- What the exchange serves with one key. -/
def sampleDocuments (kid : String) : ServedDocuments where
  discovery := .object [("issuer", .string "https://x"), ("jwks_uri", .string "https://x/jwks"),
    ("id_token_signing_alg_values_supported", .array [.string "EdDSA"])]
  jwks := .object [("keys", .array [.object [("kty", .string "OKP"), ("crv", .string "Ed25519"),
    ("kid", .string kid), ("alg", .string "EdDSA"),
    ("x", .string "AAAAAAAAAAAAAAAAAAAAAAAAAAAAAAAAAAAAAAAAAAA")]])]

/-- The next operations of call `c`. -/
def goOn (c n : ℕ) : List AuthAct := List.replicate n (.advance c ())

/-- The request under way is answered and concluded. -/
def answered : List AuthAct := [.drift (.load 0 0), .drift .conclude]

/-- After a cooldown the exchange serves another key. -/
def rotation : List AuthAct :=
  [.drift (.tick 1530000), .drift (.serve (sampleDocuments "new"))]

/-- A token of the first key has the material loaded before the rotation. -/
def loadedEarly : List AuthAct :=
  [.begin 0 oldToken] ++ goOn 0 1 ++ answered ++ goOn 0 2 ++ rotation

/-- What a computation is known to succeed with. -/
theorem ok_of_isOk {ε α : Type} {x : Except ε α} (h : x.isOk = true) : ∃ a, x = .ok a := by
  cases x with
  | error e => exact nomatch h
  | ok a => exact ⟨a, rfl⟩

/-- Whether the token is valid under whatever was served since it was presented. -/
def stillValid (ui : AdminUi) (token : String) (mark : ℕ) (w : AuthWorld) : Bool :=
  (w.servedSince mark).all fun d => (w.servedSince mark).all fun k =>
    (ui.loadVerificationMaterial d.discovery k.jwks w.clock).toOption.all fun material =>
      (ui.verifyWithMaterial token material w.clock).isOk

/-- Whether a check succeeded or failed as it would after a rotation. -/
def explained (kid : String) (material : VerificationMaterial) : Except AuthError Value → Bool
  | .ok _ => true
  | .error e => rotationFailure kid material e

/-- Whether nothing stands in the way of an operation. -/
def unhindered (ui : AdminUi) (token : String) (header : UiTokenHeader) (mark : ℕ)
    (last : Option ℕ) (w : AuthWorld) : AuthOp → Bool
  | .getMaterial => w.freshMaterial.all fun material =>
      material.discovery.algorithms.contains header.alg
  | .awaitMaterial ticket => (w.concluded.lookup ticket).all fun outcome =>
      outcome.toOption.any fun material => material.discovery.algorithms.contains header.alg
  | .verify _ material none => explained header.kid material
      (ui.verifyWithMaterial token material w.clock)
  | .verify _ _ (some _) => true
  | .decideRefresh kid => (w.negativeKids.lookup kid).isNone &&
      w.materialRequest.all (fun request => mark ≤ request.ticket.mark) &&
      (w.lastRefreshAt == last || w.materialRequest.isSome)
  | .rememberNegativeKid _ => true

section Tests

variable {token : String} {header : UiTokenHeader} {mark : ℕ} {last : Option ℕ} {w : AuthWorld}

theorem stillValid_of_test (h : stillValid ui token mark w = true) :
    StillValid ui token mark w := by
  intro d hd k hk material hload
  have htest := List.all_eq_true.mp (List.all_eq_true.mp h d hd) k hk
  simp only [hload, Except.toOption, Option.all_some] at htest
  exact ok_of_isOk htest

theorem unhindered_of_test {o : AuthOp} (h : unhindered ui token header mark last w o = true) :
    Unhindered ui token header mark last w o := by
  cases o with
  | getMaterial =>
    intro material hfresh
    rw [unhindered, hfresh, Option.all_some] at h
    exact h
  | awaitMaterial ticket =>
    intro outcome hlookup
    rw [unhindered, hlookup, Option.all_some] at h
    cases outcome with
    | error e => exact nomatch h
    | ok material => exact ⟨material, rfl, h⟩
  | verify token' material refreshed =>
    cases refreshed with
    | none =>
      intro e he
      have hexplained : explained header.kid material
          (ui.verifyWithMaterial token material w.clock) = true := h
      rw [he] at hexplained
      exact hexplained
    | some ticket => trivial
  | decideRefresh kid =>
    simp only [unhindered, Bool.and_eq_true, Bool.or_eq_true, Option.isNone_iff_eq_none,
      beq_iff_eq] at h
    obtain ⟨⟨hkid, hrequest⟩, hsince⟩ := h
    refine ⟨hkid, fun request hsome => ?_, hsince.imp_right fun hpending hnone => ?_⟩
    · simpa [hsome] using hrequest
    · simp [hnone] at hpending
  | rememberNegativeKid kid => trivial

theorem clear_of_test {c : ℕ} (m : AuthMoment) (d : ℕ) (x : Unit) (o : AuthOp)
    (h : (d != c || stillValid ui token mark m.world &&
      unhindered ui token header mark last m.world o) = true) :
    Clear ui token header mark last c m d x o := by
  rintro rfl
  simp only [bne_self_eq_false, Bool.false_or, Bool.and_eq_true] at h
  exact ⟨stillValid_of_test h.1, unhindered_of_test h.2⟩

end Tests

/-- The header of the new token. -/
def newHeader : UiTokenHeader := ⟨"new", "EdDSA", none⟩

/-- A token of the new key is accepted after one refresh. -/
theorem recovers_from_rotation_once :
    ∃ q : AuthPool, (q.result 1).isSome = true ∧ Accepts sampleUi 1 newToken q := by
  obtain ⟨p, hrun, htest⟩ := System.Run.of_follow_any (M := authSystem sampleUi)
    (show ((authSystem sampleUi).follow (Pool.initial
      (AuthWorld.new 1500000 [sampleDocuments "old"])) loadedEarly).any (fun p =>
        p.world.lastRefreshAt == none && p.world.served.length == 2 &&
        ((authSystem sampleUi).step p (.begin 1 newToken)).any fun p' =>
          ((authSystem sampleUi).followWhen (Pool.passes fun m d _ o =>
            d != 1 || stillValid sampleUi newToken 2 m.world &&
              unhindered sampleUi newToken newHeader 2 none m.world o) p'
            (goOn 1 3 ++ answered ++ goOn 1 2)).any fun q => (q.result 1).isSome) = true
      by decide +kernel)
  obtain ⟨hstart, htest⟩ := Bool.and_eq_true_iff.mp htest
  obtain ⟨p', hbegin, htest⟩ := (Option.any_eq_true _ _).mp htest
  obtain ⟨q, hlater, hresult⟩ :=
    System.Run.of_followWhen_any (Pool.under_of_passes clear_of_test) htest
  simp only [Bool.and_eq_true, beq_iff_eq] at hstart
  obtain ⟨hlast, hserved⟩ := hstart
  refine ⟨q, hresult, (recovers_from_rotation sampleUi 1500000 [sampleDocuments "old"]).2 p p' q
    loadedEarly (goOn 1 3 ++ answered ++ goOn 1 2) 1 newToken newHeader hrun (by decide +kernel)
    (by decide +kernel) ?_ hbegin ?_⟩
  · intro last hsome
    rw [hlast] at hsome
    exact nomatch hsome
  · rw [hserved, hlast]
    exact hlater

/-- A token of the key that is published later is presented before it is, and fails a refresh. -/
def presentedEarly : List AuthAct :=
  [.begin 0 newToken] ++ goOn 0 1 ++ answered ++ goOn 0 3 ++ answered ++ goOn 0 3 ++ rotation

/-- The new token under what is served after the rotation. -/
def newTokenResult (now : ℕ) : Except AuthError (VerificationMaterial × Value) := do
  let material ← sampleUi.loadVerificationMaterial (sampleDocuments "new").discovery
    (sampleDocuments "new").jwks now
  .ok (material, ← sampleUi.verifyWithMaterial newToken material now)

/-- The token is rejected after the rotation as well: its key identifier is remembered, although the
cooldown has passed, every request was answered, and the token is valid under what is served. -/
theorem remembered_kid_rejected :
    ∃ (p p' q : AuthPool) (e : AuthError) (result : VerificationMaterial × Value),
      (authSystem sampleUi).Run System.anyStep
        (Pool.initial (AuthWorld.new 1500000 [sampleDocuments "old"])) presentedEarly p ∧
      p.world.lastRefreshAt = some 1500000 ∧ p.world.clock = 1530000 ∧
      (authSystem sampleUi).step p (.begin 1 newToken) = some p' ∧
      (authSystem sampleUi).Run System.anyStep p' (goOn 1 3) q ∧ q.Failed 1 newToken e ∧
      q.world.clock = 1530000 ∧ newTokenResult 1530000 = .ok result := by
  obtain ⟨p, hrun, htest⟩ := System.Run.of_follow_any (M := authSystem sampleUi)
    (show ((authSystem sampleUi).follow (Pool.initial
      (AuthWorld.new 1500000 [sampleDocuments "old"])) presentedEarly).any (fun p =>
        p.world.lastRefreshAt == some 1500000 && p.world.clock == 1530000 &&
        ((authSystem sampleUi).step p (.begin 1 newToken)).any fun p' =>
          ((authSystem sampleUi).follow p' (goOn 1 3)).any fun q => q.world.clock == 1530000 &&
            (q.failure 1).any fun failed => failed.1 == newToken) = true by decide +kernel)
  obtain ⟨htime, htest⟩ := Bool.and_eq_true_iff.mp htest
  obtain ⟨p', hbegin, htest⟩ := (Option.any_eq_true _ _).mp htest
  obtain ⟨q, hlater, htest⟩ := System.Run.of_follow_any htest
  obtain ⟨hclock, hfailed⟩ := Bool.and_eq_true_iff.mp htest
  obtain ⟨⟨token, e⟩, hfailure, htoken⟩ := (Option.any_eq_true _ _).mp hfailed
  obtain rfl : token = newToken := by simpa using htoken
  obtain ⟨result, hresult⟩ := ok_of_isOk (x := newTokenResult 1530000) (by decide +kernel)
  simp only [Bool.and_eq_true, beq_iff_eq] at htime hclock
  exact ⟨p, p', q, e, result, hrun, htime.1, htime.2, hbegin, hlater,
    Pool.failed_of_failure hfailure, hclock, hresult⟩

end OidcExchange
