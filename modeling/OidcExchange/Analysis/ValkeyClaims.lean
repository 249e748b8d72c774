import OidcExchange.Adapters.ValkeySingleUse
import OidcExchange.Interleaving.Testing

/-!
# Claims of Valkey exclude each other

A claim that succeeds holds its key until the whole seconds counted for it have passed, which is up
to a second before the expiry. Two claims until the same instant exclude each other where none
is carried out in what remains.
-/

set_option autoImplicit false

namespace OidcExchange

open Storage Interleaving

namespace Valkey.SingleUse

abbrev ClaimMoment : Type := Moment CommandAns SingleUseRequest World

abbrev ClaimPool : Type := Pool CommandAns SingleUseRequest (Fault Error) Bool World

abbrev ClaimAct : Type := Act SingleUseRequest Delivery Instant

/-- Any number of calls on the server. -/
abbrev claimSystem : System ClaimPool ClaimAct := Pool.system semantics singleUseBody

/-- The key has been burned among the commands. -/
def Burned (key : String) (served : List Served) : Prop :=
  ∃ c t, .burn c key t true ∈ served

/-- The commands since the last claim of the key until the instant, if it has not been burned. -/
def HeldSince (key : String) (expiresAt : Instant) (served newer : List Served)
    (deadline : Instant) : Prop :=
  ∃ c ttlSeconds t older, served = newer ++ .claim c key expiresAt ttlSeconds t true :: older ∧
    ¬ Burned key newer ∧ t + ttlSeconds * nanosPerSec = deadline

/-- A claim is carried out before its expiry only while the whole seconds of an earlier claim of the
same key until the same instant, not burned since, have not passed. -/
def WithinSeconds (m : ClaimMoment) (_c : ℕ) (_x : Delivery) : Command → Prop
  | .setNxEx key expiresAt _ => m.world.clock < expiresAt → ∀ newer deadline,
      HeldSince key expiresAt m.world.served newer deadline → m.world.clock < deadline
  | _ => True

/-- Of two successful claims of a key until an instant, both carried out before it, the key has been
burned in between. -/
def Exclusive (served : List Served) : Prop :=
  ∀ newer between older c c' key expiresAt ttl ttl' t t',
    served = newer ++ .claim c' key expiresAt ttl' t' true ::
      (between ++ .claim c key expiresAt ttl t true :: older) →
    t < expiresAt → t' < expiresAt → Burned key between

/-! ## Steps of the server -/

variable {w w' : World} {c : ℕ} {key : String} {expiresAt now deadline : Instant} {ttl : ℤ}
  {keys : Table String Instant} {served newer : List Served}

theorem lookup_aliveAt : (aliveAt now keys).lookup key = some deadline ↔
    keys.lookup key = some deadline ∧ now < deadline := by
  rw [aliveAt, Table.lookup_deleteWhere_eq_some]
  simp

/-- Every successful claim of a key holds it until its deadline, or it has been burned since. -/
def Holds (w : World) : Prop :=
  ∀ newer older c key expiresAt ttl t,
    w.served = newer ++ .claim c key expiresAt ttl t true :: older →
      Burned key newer ∨ t + ttl * nanosPerSec ≤ w.clock ∨
        w.keys.lookup key = some (t + ttl * nanosPerSec)

/-- What one command or the passing of time does to the world, where the claims are within the
seconds of the earlier ones. -/
inductive ServerStep (w : World) : World → Prop
  | same : ServerStep w w
  | claim (c : ℕ) (key : String) (value : Instant) (ttl : ℤ)
      (hwithin : w.clock < value → ∀ newer deadline,
        HeldSince key value w.served newer deadline → w.clock < deadline) :
      ServerStep w { w with
        keys := (setNxEx w.clock key ttl w.keys).2
        served := .claim c key value ttl w.clock (setNxEx w.clock key ttl w.keys).1 :: w.served }
  | burn (c : ℕ) (key : String) :
      ServerStep w { w with
        keys := (aliveAt w.clock w.keys).erase key
        served := .burn c key w.clock ((aliveAt w.clock w.keys).lookup key).isSome :: w.served }
  | wait (later : Instant) (h : w.clock ≤ later) : ServerStep w { w with clock := later }

theorem Burned.cons {e : Served} (h : Burned key newer) : Burned key (e :: newer) := by
  obtain ⟨c, t, hmem⟩ := h
  exact ⟨c, t, List.mem_cons_of_mem _ hmem⟩

/-- The newest command, or one of those before. -/
theorem cons_eq_append_cases {α : Type} {e x : α} {l newer older : List α}
    (h : e :: l = newer ++ x :: older) :
    (newer = [] ∧ e = x) ∨ ∃ newer', newer = e :: newer' ∧ l = newer' ++ x :: older := by
  cases newer with
  | nil => exact Or.inl ⟨rfl, (List.cons.inj h).1⟩
  | cons y newer' =>
    obtain ⟨rfl, hrest⟩ := List.cons.inj h
    exact Or.inr ⟨newer', rfl, hrest⟩

/-- A held key refuses a claim, and a claim of another key leaves it. -/
theorem setNxEx_of_held (hheld : keys.lookup key = some deadline) (halive : now < deadline)
    (key' : String) (ttl : ℤ) :
    (setNxEx now key' ttl keys).2.lookup key = some deadline ∧
      (key' = key → (setNxEx now key' ttl keys).1 = false) := by
  have hkept := lookup_aliveAt.mpr ⟨hheld, halive⟩
  rw [setNxEx]
  by_cases hsame : key' = key
  · subst hsame
    rw [hkept]
    exact ⟨hkept, fun _ => rfl⟩
  · cases (aliveAt now keys).lookup key' with
    | some _ => exact ⟨hkept, fun h => absurd h hsame⟩
    | none =>
      refine ⟨?_, fun h => absurd h hsame⟩
      rw [AList.lookup_insert_ne (Ne.symm hsame)]
      exact hkept

/-- A successful claim stores its deadline. -/
theorem setNxEx_of_claimed (h : (setNxEx now key ttl keys).1 = true) :
    (setNxEx now key ttl keys).2.lookup key = some (now + ttl * nanosPerSec) := by
  rw [setNxEx] at h ⊢
  cases hkept : (aliveAt now keys).lookup key with
  | some _ =>
    rw [hkept] at h
    cases h
  | none => exact AList.lookup_insert _

/-- **A step** keeps every claim in its key. -/
theorem Holds.step (h : Holds w) (hstep : ServerStep w w') : Holds w' := by
  intro newer older c key expiresAt ttl t hserved
  cases hstep with
  | same => exact h newer older c key expiresAt ttl t hserved
  | wait later hlater =>
    obtain hburned | hpassed | hheld := h newer older c key expiresAt ttl t hserved
    · exact Or.inl hburned
    · exact Or.inr (Or.inl (Int.le_trans hpassed hlater))
    · exact Or.inr (Or.inr hheld)
  | claim c' key' value ttl' hwithin =>
    obtain ⟨rfl, heq⟩ | ⟨newer', rfl, hrest⟩ := cons_eq_append_cases hserved
    · obtain ⟨rfl, rfl, rfl, rfl, rfl, hclaimed⟩ := Served.claim.inj heq
      exact Or.inr (Or.inr (setNxEx_of_claimed hclaimed))
    · obtain hburned | hpassed | hheld := h newer' older c key expiresAt ttl t hrest
      · exact Or.inl hburned.cons
      · exact Or.inr (Or.inl hpassed)
      · by_cases halive : w.clock < t + ttl * nanosPerSec
        · exact Or.inr (Or.inr (setNxEx_of_held hheld halive key' ttl').1)
        · exact Or.inr (Or.inl (Int.not_lt.mp halive))
  | burn c' key' =>
    obtain ⟨-, heq⟩ | ⟨newer', rfl, hrest⟩ := cons_eq_append_cases hserved
    · exact nomatch heq
    · obtain hburned | hpassed | hheld := h newer' older c key expiresAt ttl t hrest
      · exact Or.inl hburned.cons
      · exact Or.inr (Or.inl hpassed)
      · by_cases halive : w.clock < t + ttl * nanosPerSec
        · have hkept := lookup_aliveAt.mpr ⟨hheld, halive⟩
          by_cases hsame : key' = key
          · subst hsame
            rw [hkept]
            exact Or.inl ⟨c', w.clock, List.mem_cons_self⟩
          · refine Or.inr (Or.inr ?_)
            show ((aliveAt w.clock w.keys).erase key').lookup key = _
            rw [AList.lookup_erase_ne (Ne.symm hsame)]
            exact hkept
        · exact Or.inr (Or.inl (Int.not_lt.mp halive))

/-- A claim that succeeds before its expiry comes after a burn of the earlier ones. -/
theorem burned_of_claimed (hheld : Holds w)
    (hwithin : w.clock < expiresAt → ∀ newer deadline,
      HeldSince key expiresAt w.served newer deadline → w.clock < deadline)
    (hclaimed : (setNxEx w.clock key ttl w.keys).1 = true) (hbefore : w.clock < expiresAt)
    {between older : List Served} {ttl' : ℤ} {t : Instant}
    (hserved : w.served = between ++ .claim c key expiresAt ttl' t true :: older) :
    Burned key between := by
  by_contra hnot
  have halive := hwithin hbefore between _ ⟨c, ttl', t, older, hserved, hnot, rfl⟩
  obtain hburned | hpassed | hkept := hheld between older c key expiresAt ttl' t hserved
  · exact hnot hburned
  · exact absurd halive (Int.not_lt.mpr hpassed)
  · have hrefused := (setNxEx_of_held hkept halive key ttl).2 rfl
    exact nomatch hrefused.symm.trans hclaimed

/-- **A step** within the seconds keeps the claims exclusive. -/
theorem Exclusive.step (h : Exclusive w.served) (hheld : Holds w) (hstep : ServerStep w w') :
    Exclusive w'.served := by
  intro newer between older c c' key expiresAt ttl ttl' t t' hserved hbefore hbefore'
  cases hstep with
  | same => exact h newer between older c c' key expiresAt ttl ttl' t t' hserved hbefore hbefore'
  | wait later hlater =>
    exact h newer between older c c' key expiresAt ttl ttl' t t' hserved hbefore hbefore'
  | claim c'' key'' value ttl'' hwithin =>
    obtain ⟨rfl, heq⟩ | ⟨newer', rfl, hrest⟩ := cons_eq_append_cases hserved
    · obtain ⟨rfl, rfl, rfl, rfl, rfl, hclaimed⟩ := Served.claim.inj heq
      exact burned_of_claimed hheld hwithin hclaimed hbefore' (List.cons.inj hserved).2
    · exact h newer' between older c c' key expiresAt ttl ttl' t t' hrest hbefore hbefore'
  | burn c'' key'' =>
    obtain ⟨-, heq⟩ | ⟨newer', rfl, hrest⟩ := cons_eq_append_cases hserved
    · exact nomatch heq
    · exact h newer' between older c c' key expiresAt ttl ttl' t t' hrest hbefore hbefore'

/-! ## Runs -/

/-- What a claim that returns true has performed. -/
def Claimed (request : SingleUseRequest) (past : List (Performed CommandAns))
    (result : Except (Fault Error) Bool) : Prop :=
  ∀ key expiresAt, request = .claim key expiresAt → result = .ok true →
    ∃ ttl, ⟨.setNxEx key expiresAt ttl, .ok true⟩ ∈ past

/-- Nothing is asked of what a call performs. -/
def Anything (_ : SingleUseRequest) (_ : List (Performed CommandAns)) (_ : Command) : Prop := True

theorem singleUseBody_obeys (request : SingleUseRequest) :
    (singleUseBody request).Obeys (Anything request) (Claimed request) [] := by
  cases request with
  | burn key =>
    refine Program.obeys_of_forall (fun _ _ => trivial) (fun past result => ?_) _
    intro key' expiresAt heq
    exact nomatch heq
  | claim key expiresAt =>
    refine Program.obeys_ofExcept_bind (fun _ _ => ?_) fun e _ => fun _ _ _ h => nomatch h
    refine Program.obeys_ask_bind trivial fun now => ?_
    refine Program.obeys_ofExcept_bind (fun ttl _ => ?_) fun e _ => fun _ _ _ h => nomatch h
    refine Program.obeys_ask_bind trivial fun outcome => ?_
    rw [Program.obeys_ofExcept]
    rintro key' expiresAt' heq rfl
    cases heq
    exact ⟨ttl, List.mem_cons_self⟩

/-- What a command does to the world. -/
theorem serverStep_of_exec {m : ClaimMoment} {x : Delivery} {o : Command} {ans : CommandAns o}
    (hwithin : WithinSeconds m c x o) (h : exec x c o m.world = some (ans, w')) :
    ServerStep m.world w' := by
  cases o with
  | clock =>
    cases x with
    | answered =>
      cases h
      exact .same
    | undelivered detail => exact nomatch h
  | setNxEx key value ttl =>
    cases x with
    | answered =>
      cases h
      exact .claim c key value ttl hwithin
    | undelivered detail =>
      cases h
      exact .same
  | getDel key =>
    cases x with
    | answered =>
      cases h
      exact .burn c key
    | undelivered detail =>
      cases h
      exact .same

/-- The claims are held and exclude each other, and every claim that succeeded has been served. -/
structure ClaimLedger (m : ClaimMoment) : Prop where
  holds : Holds m.world
  exclusive : Exclusive m.world.served
  served : ∀ c key expiresAt ttl,
    .performed c (.setNxEx key expiresAt ttl) (.ok true) ∈ m.history →
      ∃ t, .claim c key expiresAt ttl t true ∈ m.world.served

variable {m : ClaimMoment}

/-- An event that performs nothing leaves the ledger. -/
theorem ClaimLedger.frame (h : ClaimLedger m) {history : List (Event CommandAns SingleUseRequest)}
    (hhistory : ∀ c o (ans : CommandAns o), .performed c o ans ∈ history →
      .performed c o ans ∈ m.history) : ClaimLedger { m with history := history } :=
  ⟨h.holds, h.exclusive, fun c key expiresAt ttl hmem =>
    h.served c key expiresAt ttl (hhistory _ _ _ hmem)⟩

/-- What has been served stays. -/
theorem ServerStep.served_subset (h : ServerStep w w') : w.served ⊆ w'.served := by
  cases h with
  | same => exact List.Subset.refl _
  | wait later hlater => exact List.Subset.refl _
  | claim c key value ttl hwithin => exact List.subset_cons_self _ _
  | burn c key => exact List.subset_cons_self _ _

/-- A claim that is answered with success has been served. -/
theorem served_of_exec {x : Delivery} (h : exec x c (.setNxEx key expiresAt ttl) w =
    some (.ok true, w')) : ∃ t, .claim c key expiresAt ttl t true ∈ w'.served := by
  cases x with
  | undelivered detail => exact nomatch h
  | answered =>
    obtain ⟨hans, rfl⟩ := Prod.mk.inj (Option.some.inj h)
    have hclaimed : (setNxEx w.clock key ttl w.keys).1 = true := Except.ok.inj hans
    refine ⟨w.clock, ?_⟩
    rw [hclaimed]
    exact List.mem_cons_self

theorem ClaimLedger.performs (h : ClaimLedger m) {x : Delivery} {o : Command} {ans : CommandAns o}
    (hwithin : WithinSeconds m c x o) (hexec : exec x c o m.world = some (ans, w')) :
    ClaimLedger (m.performed c o ans w') := by
  have hstep := serverStep_of_exec hwithin hexec
  refine ⟨h.holds.step hstep, h.exclusive.step h.holds hstep, fun c' key expiresAt ttl hmem => ?_⟩
  obtain heq | hmem := List.mem_cons.mp hmem
  · cases heq
    exact served_of_exec hexec
  · obtain ⟨t, ht⟩ := h.served c' key expiresAt ttl hmem
    exact ⟨t, hstep.served_subset ht⟩

theorem ClaimLedger.drifted (h : ClaimLedger m) {later : Instant}
    (hdrift : drift later m.world = some w') : ClaimLedger (m.drifted w') := by
  have hstep : ServerStep m.world w' ∧ w'.served = m.world.served := by
    rw [drift] at hdrift
    split at hdrift
    · rename_i hlater
      cases hdrift
      exact ⟨.wait later hlater, rfl⟩
    · exact nomatch hdrift
  refine ⟨h.holds.step hstep.1, h.exclusive.step h.holds hstep.1, fun c key expiresAt ttl hmem => ?_⟩
  obtain ⟨t, ht⟩ := h.served c key expiresAt ttl hmem
  exact ⟨t, hstep.1.served_subset ht⟩

/-- Claims within the seconds of the earlier ones. -/
def claimProtocol : Protocol semantics Anything where
  inv := ClaimLedger
  allowed := WithinSeconds
  begins h _ := h.frame fun _ _ _ hmem => (List.mem_cons.mp hmem).resolve_left fun heq => nomatch heq
  performs h _ _ hwithin hexec := h.performs hwithin hexec
  ends h _ := h.frame fun _ _ _ hmem => (List.mem_cons.mp hmem).resolve_left fun heq => nomatch heq
  drifts h hdrift := h.drifted hdrift

theorem ClaimLedger.fresh (clock : Instant) :
    ClaimLedger (Pool.initial (freshWorld clock) : ClaimPool).toMoment :=
  ⟨fun newer older c key expiresAt ttl t hserved => by simp [Pool.initial, freshWorld] at hserved,
    fun newer between older c c' key expiresAt ttl ttl' t t' hserved => by
      simp [Pool.initial, freshWorld] at hserved,
    fun c key expiresAt ttl hmem => nomatch hmem⟩

/-- **Claims of Valkey exclude each other** in every run whose claims are carried out within the
seconds of the earlier ones: a claim that returns true has been served, and of two that have been
served with success before the expiry the key has been burned in between. -/
theorem claims_exclude (clock : Instant) (as : List ClaimAct) (p : ClaimPool)
    (hrun : claimSystem.Run (Pool.Under WithinSeconds) (Pool.initial (freshWorld clock)) as p) :
    (∀ c key expiresAt, p.Returned c (.claim key expiresAt) true →
      ∃ ttl t, .claim c key expiresAt ttl t true ∈ p.world.served) ∧
      Exclusive p.world.served := by
  have hinitial : Disciplined Anything Claimed (Pool.initial (freshWorld clock) : ClaimPool) :=
    .initial _
  have hledger := claimProtocol.run singleUseBody_obeys hrun hinitial (.fresh clock)
  refine ⟨fun c key expiresAt hreturned => ?_, hledger.exclusive⟩
  have hdisciplined := hinitial.run singleUseBody_obeys hrun
  obtain ⟨ttl, hpast⟩ := hdisciplined.returned hreturned key expiresAt rfl rfl
  obtain ⟨t, ht⟩ := hledger.served c key expiresAt ttl ((Moment.mem_past _ _ _ _).mp hpast)
  exact ⟨ttl, t, ht⟩

/-- The test of the condition, of a claim that nothing has been burned for. -/
def withinSeconds (m : ClaimMoment) (_c : ℕ) (_x : Delivery) : Command → Bool
  | .setNxEx key expiresAt _ => m.world.served.all fun
    | .claim _ key' expiresAt' ttl t true =>
      decide (key' = key → expiresAt' = expiresAt → m.world.clock < t + ttl * nanosPerSec)
    | _ => true
  | _ => true

theorem withinSeconds_sound (m : ClaimMoment) (c : ℕ) (x : Delivery) (o : Command)
    (h : withinSeconds m c x o = true) : WithinSeconds m c x o := by
  cases o with
  | setNxEx key expiresAt ttl =>
    rintro - newer deadline ⟨c', ttl', t, older, hserved, -, rfl⟩
    have hmem : Served.claim c' key expiresAt ttl' t true ∈ m.world.served := by
      rw [hserved]
      exact List.mem_append_right _ List.mem_cons_self
    exact of_decide_eq_true (List.all_eq_true.mp h _ hmem) rfl rfl
  | clock => trivial
  | getDel key => trivial

/-- Ten and a half seconds from the start. -/
def halfPast : Instant := 10500000000

/-- A marker until then. -/
def markerClaim : SingleUseRequest := .claim "assertion:idp:jti" halfPast

/-- Two calls for one marker, one after the other within its seconds: the second is refused. -/
theorem claims_exclude_in_turn : ∃ as p,
    claimSystem.Run (Pool.Under WithinSeconds) (Pool.initial (freshWorld 0)) as p ∧
      p.Returned 0 markerClaim true ∧ p.Returned 1 markerClaim false ∧
        Exclusive p.world.served := by
  obtain ⟨p, hrun, hresults⟩ := System.Run.of_followWhen_any (M := claimSystem)
    (Pool.under_of_passes withinSeconds_sound)
    (show (claimSystem.followWhen (Pool.passes withinSeconds) (Pool.initial (freshWorld 0))
      [.begin 0 markerClaim, .advance 0 .answered, .advance 0 .answered, .begin 1 markerClaim,
        .drift 9000000000, .advance 1 .answered, .advance 1 .answered]).any
      (fun p => decide (p.result 0 = some (markerClaim, true)) &&
        decide (p.result 1 = some (markerClaim, false))) = true by decide +kernel)
  obtain ⟨hfirst, hsecond⟩ := Bool.and_eq_true_iff.mp hresults
  exact ⟨_, p, hrun, Pool.returned_of_result (of_decide_eq_true hfirst),
    Pool.returned_of_result (of_decide_eq_true hsecond), (claims_exclude 0 _ p hrun).2⟩

/-- Two calls for one marker, the second carried out in the half second that its seconds leave. -/
theorem claims_overlap : ∃ as p,
    claimSystem.Run System.anyStep (Pool.initial (freshWorld 0)) as p ∧
      p.Returned 0 markerClaim true ∧ p.Returned 1 markerClaim true ∧
        ¬ Exclusive p.world.served := by
  obtain ⟨p, hrun, hresults⟩ := System.Run.of_follow_any (M := claimSystem)
    (show (claimSystem.follow (Pool.initial (freshWorld 0))
      [.begin 0 markerClaim, .advance 0 .answered, .advance 0 .answered, .begin 1 markerClaim,
        .drift 9000000000, .advance 1 .answered, .drift 10200000000, .advance 1 .answered]).any
      (fun p => (decide (p.result 0 = some (markerClaim, true)) &&
        decide (p.result 1 = some (markerClaim, true))) &&
          decide (p.world.served = [.claim 1 "assertion:idp:jti" halfPast 1 10200000000 true,
            .claim 0 "assertion:idp:jti" halfPast 10 0 true])) = true by decide +kernel)
  obtain ⟨hresults, hserved⟩ := Bool.and_eq_true_iff.mp hresults
  obtain ⟨hfirst, hsecond⟩ := Bool.and_eq_true_iff.mp hresults
  refine ⟨_, p, hrun, Pool.returned_of_result (of_decide_eq_true hfirst),
    Pool.returned_of_result (of_decide_eq_true hsecond), fun hexclusive => ?_⟩
  obtain ⟨c, t, hburned⟩ := hexclusive [] [] [] 0 1 "assertion:idp:jti" halfPast 10 1 0 10200000000
    (of_decide_eq_true hserved) (by decide) (by decide)
  exact nomatch hburned

end Valkey.SingleUse

end OidcExchange
