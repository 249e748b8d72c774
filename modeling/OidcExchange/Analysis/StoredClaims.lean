import OidcExchange.Analysis.Accounts
import OidcExchange.Analysis.AppFlow

/-!
# No reserved claim is ever stored

Every way to write the claims of a user either refuses a map with a reserved name or writes what
was read from the store and what was admitted. So no user that is stored bears a reserved claim,
whatever the calls are and however they interleave; what the protocol says of itself in a token
stays out of reach of what operators write.
-/

set_option autoImplicit false

namespace OidcExchange

open Storage Interleaving Service Past

/-- No name of the map is reserved. -/
def NothingReserved (claims : Table String Value) : Prop :=
  ∀ key value, claims.lookup key = some value → isReservedClaim key = false

theorem nothingReserved_empty : NothingReserved ∅ := fun _ _ h => by cases h

/-- A map without a lowest reserved key has none. -/
theorem nothingReserved_of_findReservedClaimKey {claims : Table String Value}
    (h : findReservedClaimKey claims = none) : NothingReserved claims := by
  intro key value hlookup
  have hkey : key ∈ claims.keys := AList.mem_keys.mpr (AList.lookup_isSome.mp (by simp [hlookup]))
  have hnone := List.find?_eq_none.mp h key
    ((List.mem_insertionSort (· ≤ ·)).mpr hkey)
  simpa using hnone

/-- A merge of maps without reserved names has none. -/
theorem nothingReserved_merged {existing claims : Table String Value} (he : NothingReserved existing)
    (hc : NothingReserved claims) : NothingReserved (mergedClaims existing claims) := by
  intro key value hlookup
  rw [mergedClaims, Table.lookup_merge] at hlookup
  cases hkey : claims.lookup key with
  | some value' => exact hc key value' hkey
  | none =>
    rw [hkey] at hlookup
    exact he key value hlookup

/-! ## The discipline -/

/-- No user that the call has read bears a reserved claim. -/
def ReadNothingReserved (past : Past) : Prop :=
  ∀ id user, ⟨.getUserById id, .ok (some user)⟩ ∈ past → NothingReserved user.claims

/-- A call writes no reserved claim unless it has read one. -/
def ClaimsReady (past : Past) : Op → Prop
  | .writeUser _ _ user => ReadNothingReserved past → NothingReserved user.claims
  | _ => True

/-- The operation writes no user. -/
def Op.Unwriting : Op → Prop
  | .writeUser _ _ _ => False
  | _ => True

theorem claimsReady_of_unwriting (past : Past) {o : Op} (h : o.Unwriting) : ClaimsReady past o := by
  cases o <;> trivial

theorem ReadNothingReserved.of_suffix {past past' : Past} (h : ReadNothingReserved past')
    (hsuffix : past <:+ past') : ReadNothingReserved past :=
  fun id user hmem => h id user (hsuffix.subset hmem)

/-- The claims that a patch sets are unreserved when those that were read are. -/
def PatchKeepsOff (past : Past) (patch : UserPatch) : Prop :=
  ∀ claims, patch.claims = some claims → ReadNothingReserved past → NothingReserved claims

theorem PatchKeepsOff.of_suffix {past past' : Past} {patch : UserPatch}
    (h : PatchKeepsOff past patch) (hsuffix : past <:+ past') : PatchKeepsOff past' patch :=
  fun claims hclaims hread => h claims hclaims (hread.of_suffix hsuffix)

section Flows

variable {past : Past}

/-- An update by such a patch complies. -/
theorem updateUser_claims (userId : String) {patch : UserPatch}
    (hpatch : PatchKeepsOff past patch) :
    (updateUser userId patch).Obeys ClaimsReady (fun past' _ => past <:+ past') past := by
  suffices h : ∀ budget (past' : Past), past <:+ past' →
      (retryOnVersionConflict userId (updateAttempt userId patch) budget).Obeys ClaimsReady
        (fun past'' _ => past <:+ past'') past' from h updateMaxAttempts past List.suffix_rfl
  intro budget
  induction budget with
  | zero => exact fun _ h => h
  | succ budget ih =>
    intro past' hsuffix
    have hattempt : (updateAttempt userId patch).Obeys ClaimsReady
        (fun past'' _ => past <:+ past'') past' := by
      refine ⟨trivial, ?_⟩
      rintro (e | _ | read)
      · exact hsuffix.trans (List.suffix_cons ..)
      · exact hsuffix.trans (List.suffix_cons ..)
      · refine ⟨trivial, fun now => ?_⟩
        have hgrown : past <:+ ⟨.now, now⟩ :: ⟨.getUserById userId, .ok (some read)⟩ :: past' :=
          (hsuffix.trans (List.suffix_cons ..)).trans (List.suffix_cons ..)
        refine ⟨fun hread => ?_, fun ans => ?_⟩
        · show NothingReserved (patch.claims.getD read.claims)
          cases hclaims : patch.claims with
          | none => exact hread userId read (List.mem_cons_of_mem _ List.mem_cons_self)
          | some claims => exact hpatch claims hclaims (hread.of_suffix hgrown)
        · rcases ans with e | written
          · exact hgrown.trans (List.suffix_cons ..)
          · exact hgrown.trans (List.suffix_cons ..)
    refine hattempt.bind ?_ (fun _ _ h => h)
    rintro past₁ (_ | user) h₁
    · exact ih past₁ h₁
    · exact h₁

/-- What follows an update writes no user. -/
theorem then_unwriting {ε α β : Type} {p : Service ε α} {f : α → Service ε β} {post : Past → Prop}
    (hp : p.Obeys ClaimsReady (fun past' _ => post past') past)
    (hf : ∀ a, (f a).Only Op.Unwriting) :
    (p >>= f).Obeys ClaimsReady (fun _ _ => True) past :=
  hp.bind (fun _ a _ => ((hf a).obeys fun _ _ => claimsReady_of_unwriting _).mono
    fun _ _ _ => trivial) (fun _ _ _ => trivial)

/-- A map that was admitted has no reserved name. -/
theorem ensureNoReservedClaims_admits {ready : Past → Op → Prop} (claims : Table String Value) :
    (ensureNoReservedClaims claims).Obeys ready
      (fun past' r => past' = past ∧ (r = .ok () → NothingReserved claims)) past := by
  unfold ensureNoReservedClaims
  split
  · exact ⟨rfl, fun h => by cases h⟩
  · rename_i hnone
    exact ⟨rfl, fun _ => nothingReserved_of_findReservedClaimKey hnone⟩

variable (d : Deployment)

/-- A replacement of the claims complies when it turns unreserved claims into such. -/
theorem replaceClaims_claims (operator : OperatorPrincipal) (userId : String)
    {next : User → Table String Value} (operation : String)
    (hnext : ∀ user, NothingReserved user.claims → NothingReserved (next user)) (past : Past) :
    (replaceClaims d operator userId next operation).Obeys ClaimsReady (fun _ _ => True) past := by
  refine ⟨trivial, ?_⟩
  rintro (e | _ | user)
  · trivial
  · trivial
  · show (updateUser userId (claimsPatch (next user)) >>= fun _ =>
      emitClaimsAuditEvent d operator user operation).Obeys _ _ _
    refine then_unwriting (updateUser_claims _ ?_) fun _ => ?_
    · rintro claims ⟨⟩ hread
      exact hnext user (hread userId user List.mem_cons_self)
    · exact (attributed_only _ _).bind fun _ => emitMandatoryAuditEvent_only_of d trivial

/-- A patch complies, since the claims that it sets are checked. -/
theorem applyValidatedPatch_claims (userId : String) (patch : UserPatch) (past : Past) :
    (applyValidatedPatch userId patch).Obeys ClaimsReady (fun _ _ => True) past := by
  have hensure : (ensurePatchClaims patch).Obeys ClaimsReady
      (fun past' r => past' = past ∧ (r = .ok () → PatchKeepsOff past patch)) past := by
    unfold ensurePatchClaims
    split
    · rename_i claims hclaims
      refine (ensureNoReservedClaims_admits claims).mono ?_
      rintro past' r ⟨rfl, h⟩
      refine ⟨rfl, fun hok claims' hclaims' _ => ?_⟩
      obtain rfl := Option.some.inj (hclaims.symm.trans hclaims')
      exact h hok
    · rename_i hnone
      refine ⟨rfl, fun _ claims hclaims => ?_⟩
      cases hnone.symm.trans hclaims
  refine hensure.bind ?_ (fun _ _ _ => trivial)
  rintro past' ⟨⟩ ⟨rfl, hpatch⟩
  refine ⟨trivial, ?_⟩
  rintro (e | _ | current)
  · trivial
  · trivial
  · refine (@ensureTransition_obeys (⟨.getUserById userId, .ok (some current)⟩ :: past') ClaimsReady
      current.status patch).bind ?_ (fun _ _ _ => trivial)
    rintro _ ⟨⟩ ⟨rfl, -⟩
    have hupdate := updateUser_claims userId
      ((hpatch rfl).of_suffix (List.suffix_cons (⟨.getUserById userId, .ok (some current)⟩ :
        Performed Ans) past'))
    refine then_unwriting hupdate fun user => ?_
    split
    · exact ⟨trivial, by rintro (e | count) <;> trivial⟩
    · trivial

/-- What a served request writes into the claims. -/
theorem serve_claims (request : Request) :
    (serve d request).Obeys ClaimsReady (fun _ _ => True) [] := by
  have hnone : request.patch? = none →
      (serve d request).Obeys ClaimsReady (fun _ _ => True) [] := by
    intro hnone
    refine ((serve_obeys d request).mono fun _ _ _ => trivial).mono_ready ?_
    intro past o hready
    cases o with
    | writeUser u v user =>
      obtain ⟨patch, hpatch, -⟩ := hready
      cases hnone.symm.trans hpatch
    | _ => trivial
  cases request with
  | refresh req => exact hnone rfl
  | exchange req => exact hnone rfl
  | adminUpdateUser operator userId patch =>
    refine obeys_map (then_unwriting (applyValidatedPatch_claims userId patch []) fun user => ?_)
      fun _ _ _ => trivial
    exact (emitAdminMutationAuditEvent_only_of d (fun _ => trivial) _ _ _ _).bind fun _ =>
      (notifyQuietly_only_of _ trivial).bind fun _ => trivial
  | adminDeleteUser operator userId =>
    refine obeys_map (then_unwriting (applyValidatedPatch_claims userId deletePatch []) fun user =>
      ?_) fun _ _ _ => trivial
    exact (emitAdminMutationAuditEvent_only_of d (fun _ => trivial) _ _ _ _).bind fun _ =>
      notifyQuietly_only_of _ trivial

/-- What the past of a call contains when it writes claims. -/
def AppClaims (past : AdminPast) : AdminOp → Prop
  | .token (.port o) => ClaimsReady (AdminPast.core past) o
  | _ => True

variable (sessionIdForFamily : String → String) {Bytes : Type} (W : Wire Bytes)
  (K : KeyManager Bytes)

/-- **Every request keeps reserved names out of what it writes.** -/
theorem answerApp_claims (request : AppRequest) :
    (answerApp d sessionIdForFamily W K request).Obeys (fun past o => AppClaims past o)
      (fun _ _ => True) [] := by
  have hown : ∀ {α : Type} {p : Service Error α} {f : α → AppReply},
      p.Obeys ClaimsReady (fun _ _ => True) [] →
      (f <$> administered p).Obeys (fun past o => AppClaims past o) (fun _ _ => True) [] :=
    fun hp => Program.Obeys.bind (administered_start hp fun _ _ h => h) (fun _ _ _ => trivial)
      (fun _ _ _ => trivial)
  have honly : ∀ {α : Type} {p : Service Error α} {f : α → AppReply}, p.Only Op.Unwriting →
      (f <$> administered p).Obeys (fun past o => AppClaims past o) (fun _ _ => True) [] :=
    fun hp => hown ((hp.obeys fun _ _ => claimsReady_of_unwriting _).mono fun _ _ _ => trivial)
  have hchecked : ∀ {claims : Table String Value} {p : Service Error Unit},
      (NothingReserved claims → p.Obeys ClaimsReady (fun _ _ => True) []) →
      (ensureNoReservedClaims claims >>= fun _ => p).Obeys ClaimsReady (fun _ _ => True) [] := by
    intro claims p hp
    refine (ensureNoReservedClaims_admits claims).bind ?_ (fun _ _ _ => trivial)
    rintro past ⟨⟩ ⟨rfl, h⟩
    exact hp (h rfl)
  cases request with
  | admin request =>
    by_cases hserved : ∃ served, request = .token (.served served)
    · obtain ⟨served, rfl⟩ := hserved
      rw [answerApp_served]
      exact hown (serve_claims d served)
    · refine ((answerAdmin_obeys d sessionIdForFamily W K request).mono_ready ?_).bind
        (fun _ _ _ => trivial) (fun _ _ _ => trivial)
      rintro past (o | ⟨u, t, n⟩) hready
      · cases o with
        | port o =>
          refine claimsReady_of_unwriting _ ?_
          cases request with
          | token request =>
            cases request with
            | served served => exact absurd ⟨served, rfl⟩ hserved
            | revoke request => cases o <;> trivial
          | _ => cases o <;> trivial
        | getSessionByRefreshToken h => trivial
      · trivial
  | createUser operator new =>
    refine honly ⟨trivial, ?_⟩
    rintro (e | user)
    · trivial
    · have hrecord : (emitAdminMutationAuditEvent d .created user .success operator).Only
          Op.Unwriting := emitAdminMutationAuditEvent_only_of d (fun _ => trivial) _ _ _ _
      have hnotify : (notifyQuietly (.created user)).Only Op.Unwriting :=
        notifyQuietly_only_of _ trivial
      exact hrecord.bind fun _ => hnotify.bind fun _ => trivial
  | getUser userId => exact honly ⟨trivial, by rintro (e | user) <;> trivial⟩
  | getClaims userId => exact honly ⟨trivial, by rintro (e | _ | user) <;> trivial⟩
  | setClaims operator userId claims =>
    exact hown (hchecked fun h => replaceClaims_claims d operator userId _ (fun _ _ => h) [])
  | mergeClaims operator userId claims =>
    refine hown ?_
    rw [adminMergeClaims_eq]
    exact hchecked fun h => replaceClaims_claims d operator userId _
      (fun _ hread => nothingReserved_merged hread h) []
  | clearClaims operator userId =>
    exact hown (replaceClaims_claims d operator userId _ (fun _ _ => nothingReserved_empty) [])
  | listUserSessions userId =>
    refine (adminListUserSessions_obeys sessionIdForFamily userId ?_).bind (fun _ _ _ => trivial)
      (fun _ _ _ => trivial)
    rintro past _ (⟨u, rfl⟩ | rfl | ⟨u, t, n, rfl⟩) <;> trivial

end Flows

/-! ## The invariant -/

/-- No user that is stored, or that was read, bears a reserved claim. -/
structure ClaimsInvariant (m : AppMoment) : Prop where
  stored : ∀ id user, m.world.users.lookup id = some user → NothingReserved user.claims
  read : ∀ c id user, .performed c (.token (.port (.getUserById id))) (.ok (some user)) ∈ m.history →
    NothingReserved user.claims

variable {d : Deployment} {m : AppMoment}

/-- Every operation that a call performs keeps the claims unreserved. -/
theorem ClaimsInvariant.performs (h : ClaimsInvariant m) {c : ℕ} {x : Choice} {o : Op} {ans : Ans o}
    {w : World} (hready : ClaimsReady (AdminPast.core (m.past c)) o)
    (hex : exec d x c o m.world = some (ans, w)) :
    ClaimsInvariant (m.performed c (.token (.port o)) ans w) where
  stored := by
    intro id user hlookup
    cases userStep_of_exec hex with
    | created new fresh _ _ _ =>
      change (m.world.users.insert fresh.id fresh).lookup id = some user at hlookup
      rw [Table.lookup_insert_ite] at hlookup
      split at hlookup
      · obtain rfl := Option.some.inj hlookup
        obtain ⟨-, -, hclaims⟩ := identity_of_createUser hex
        rw [hclaims]
        exact nothingReserved_empty
      · exact h.stored id user hlookup
    | wrote userId written stored hstored =>
      change (m.world.users.insert userId (stored.overwritten written)).lookup id = some user
        at hlookup
      rw [Table.lookup_insert_ite] at hlookup
      split at hlookup
      · obtain rfl := Option.some.inj hlookup
        exact hready fun u read hmem => h.read c u read ((Moment.mem_past ..).mp (mem_core.mp hmem))
      · exact h.stored id user hlookup
    | kept _ _ hsame => exact h.stored id user (hsame ▸ hlookup)
  read := by
    intro c' id user hmem
    rcases List.mem_cons.mp hmem with heq | hmem
    · cases heq
      exact h.stored id user (stored_of_getUserById hex)
    · exact h.read c' id user hmem

/-- The claims, kept by every step of the service. -/
def claimsProtocol (d : Deployment) :
    Protocol (adminSemantics d) (fun (_ : AppRequest) past o => AppClaims past o) where
  inv m := ClaimsInvariant m
  allowed _ _ _ _ := True
  begins h _ := ⟨h.stored, fun c id user hmem => h.read c id user (by simpa using hmem)⟩
  performs := fun {m c i x o ans w} h _ hready _ hex => by
    have hother : (∀ o', o ≠ .token (.port o')) → ClaimsInvariant (m.performed c o ans w) := by
      intro hne
      obtain ⟨rfl, -⟩ := same_of_not_port hne hex
      refine ⟨h.stored, fun c' id user hmem => ?_⟩
      rcases List.mem_cons.mp hmem with heq | hmem
      · cases heq
        exact absurd rfl (hne _)
      · exact h.read c' id user hmem
    cases o with
    | listLiveSessions u t n => exact hother fun _ h => by cases h
    | token o =>
      cases o with
      | getSessionByRefreshToken k => exact hother fun _ h => by cases h
      | port o => exact h.performs hready hex
  ends h _ := ⟨h.stored, fun c id user hmem => h.read c id user (by simpa using hmem)⟩
  drifts h hdrift := ⟨(shrinks_of_drift hdrift).2 ▸ h.stored, h.read⟩

variable {sessionIdForFamily : String → String} {Bytes : Type} {W : Wire Bytes}
  {K : KeyManager Bytes}

/-- **No reserved claim is ever stored**: in every run of the service, no name in the claims of a
stored user is one that the token protocol reserves. -/
theorem reserved_never_stored {clock : Instant} {p : AppPool} {as : List AppAct}
    (hrun : (appService d sessionIdForFamily W K).Run System.anyStep (AppPool.start clock) as p)
    (id : String) (user : User) (hstored : p.world.users.lookup id = some user) :
    ∀ key value, user.claims.lookup key = some value → isReservedClaim key = false := by
  have hstart : ClaimsInvariant (AppPool.start clock).toMoment := by
    constructor <;> simp [AppPool.start, Pool.initial, World.empty]
  exact ((claimsProtocol d).run (fun i => answerApp_claims d sessionIdForFamily W K i)
    (hrun.mono fun _ _ _ _ _ _ _ => trivial) (Disciplined.initial _) hstart).stored id user hstored

/-- An operator writes the claims of a user that has signed in. -/
def Sample.planned : List AppAct :=
  (tokenSignIn "a").map tokenStep ++ appCall 1
    (.setClaims operator theUser ((∅ : Table String Value).insert "plan" (.string "pro")))
    [.proceed, .proceed, .proceed, .proceed, .proceed]

/-- The claim that the operator wrote is stored, and no reserved one is. -/
theorem reserved_never_stored_planned : ∃ p user,
    Sample.app.Run System.anyStep (AppPool.start 0) Sample.planned p ∧
      p.world.users.lookup Sample.theUser = some user ∧ (user.claims.lookup "plan").isSome = true ∧
      user.claims.lookup "sub" = none := by
  have hruns : (Sample.app.follow (AppPool.start 0) Sample.planned).any (fun p =>
      (p.world.users.lookup Sample.theUser).any fun user =>
        (user.claims.lookup "plan").isSome) = true := by decide +kernel
  obtain ⟨p, hrun, htest⟩ := System.Run.of_follow_any hruns
  obtain ⟨user, hstored, hplan⟩ := (Option.any_eq_true _ _).mp htest
  refine ⟨p, user, hrun, hstored, hplan, ?_⟩
  cases hsub : user.claims.lookup "sub" with
  | none => rfl
  | some value =>
    have hreserved := reserved_never_stored hrun Sample.theUser user hstored "sub" value hsub
    exact absurd hreserved (by decide)

end OidcExchange
