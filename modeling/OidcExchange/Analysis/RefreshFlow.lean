import OidcExchange.Analysis.CallFacts

/-!
# The refresh flow complies

Minting is quiet and yields the next generation of the generation it was given; a
swap follows an expiry gate, a user gate and a mint; a family is revoked only after
the call has learned of a reuse, and then always.
-/

set_option autoImplicit false

namespace OidcExchange

open Storage Interleaving Service Past
open Program (Since)

variable (d : Deployment) {past : Past}

/-! ## Refusals -/

section Refusals

variable {α : Type} {ready : Past → Op → Prop} {post : Past → Except (Fault Error) α → Prop}

/-- A quiet emission before an error admits any result that is stable under quiet
operations. -/
theorem obeys_then_fail {p : Service Error Unit} {error : Error} (hp : p.Only Op.Quiet)
    (hready : ∀ past o, Op.Quiet o → ready past o)
    (hpost : ∀ past' e, Since Op.Quiet past past' → post past' (.error e)) :
    (p >>= fun _ => (fail error : Service Error α)).Obeys ready post past :=
  (hp.obeys hready).bind (fun past' _ h => hpost past' _ h) (fun past' e h => hpost past' e h)

theorem refuseWithValidationFailed_obeys (reason : String) (actor : Option String)
    (request : RefreshRequest) (hready : ∀ past o, Op.Quiet o → ready past o)
    (hpost : ∀ past' e, Since Op.Quiet past past' → post past' (.error e)) :
    (refuseWithValidationFailed (α := α) d reason actor request).Obeys ready post past :=
  obeys_assert (fun _ => obeys_then_fail (emitAudit_only d _) hready hpost)
    (fun _ => hpost past _ (.refl past))

theorem refuseSuspended_obeys (user : User) (request : RefreshRequest)
    (hready : ∀ past o, Op.Quiet o → ready past o)
    (hpost : ∀ past' e, Since Op.Quiet past past' → post past' (.error e)) :
    (refuseSuspended (α := α) d user request).Obeys ready post past :=
  obeys_then_fail (emitMandatoryAuditEvent_only d _) hready hpost

end Refusals

/-! ## Minting -/

theorem succU32_obeys {ready : Past → Op → Prop} (a : UInt32) :
    (succU32 d a : Service Error UInt32).Obeys ready (fun past' r => past' = past ∧
      ∀ b, r = .ok b → b = a + 1 ∧ (d.overflowChecks = true → a.toNat + 1 < 2 ^ 32)) past := by
  unfold succU32
  split
  · exact ⟨rfl, by simp⟩
  · rename_i hno
    refine ⟨rfl, fun b hb => ?_⟩
    obtain rfl : a + 1 = b := by simpa using hb
    exact ⟨rfl, fun hchecks => by
      by_contra hge
      exact hno ⟨hchecks, by omega⟩⟩

theorem replacementFamily_obeys {ready : Past → Op → Prop} (live : Session)
    (hready : ∀ past o, Op.Quiet o → ready past o) :
    (replacementFamily live).Obeys ready (fun past' r => Since Op.Quiet past past' ∧
      ∀ familyId, r = .ok familyId → isValidFamilyId familyId = true →
        FamilyOf past' live familyId) past := by
  unfold replacementFamily
  split
  · rename_i hempty
    refine ⟨hready _ _ trivial, fun familyId => ⟨(Since.refl past).cons trivial, ?_⟩⟩
    rintro _ ⟨⟩ hvalid
    exact ⟨hvalid, .inl ⟨by simpa using hempty, by simp⟩⟩
  · rename_i hsome
    refine ⟨.refl past, ?_⟩
    rintro _ ⟨⟩ hvalid
    exact ⟨hvalid, .inr ⟨by simpa using hsome, rfl⟩⟩

/-- A family that was drawn stays drawn. -/
theorem FamilyOf.since {past' : Past} {live : Session} {familyId : String}
    (h : FamilyOf past live familyId) (hsince : Since Op.Quiet past past') :
    FamilyOf past' live familyId :=
  ⟨h.1, h.2.imp (fun h => ⟨h.1, hsince.mem h.2⟩) id⟩

/-- Minting is quiet, and what it yields is the next generation of `live`. -/
theorem mintReplacement_obeys {ready : Past → Op → Prop} (live : Session)
    (hready : ∀ past o, Op.Quiet o → ready past o) :
    (mintReplacement d live).Obeys ready (fun past' r => Since Op.Quiet past past' ∧
      ∀ raw s, r = .ok (raw, s) → Minted d past' live raw s) past := by
  unfold mintReplacement
  refine obeys_assert (fun _ => ?_) (fun _ => ⟨.refl past, by simp⟩)
  refine ⟨hready _ _ trivial, fun raw => ?_⟩
  have hdrawn : Since Op.Quiet past (⟨.randomToken, raw⟩ :: past) :=
    (Since.refl past).cons trivial
  refine obeys_assert (fun _ => ?_) (fun _ => ⟨hdrawn, by simp⟩)
  refine obeys_assert (fun _ => ?_) (fun _ => ⟨hdrawn, by simp⟩)
  refine (replacementFamily_obeys live hready).bind ?_ (fun past' e h => ⟨hdrawn.trans h.1, by simp⟩)
  rintro past₁ familyId ⟨hsince₁, hfamily⟩
  have h₁ := hdrawn.trans hsince₁
  refine obeys_assert (fun hvalid => ?_) (fun _ => ⟨h₁, by simp⟩)
  refine (succU32_obeys d live.generation).bind ?_ (fun past' e h => ⟨h.1 ▸ h₁, by simp⟩)
  rintro past₂ generation ⟨rfl, hgeneration⟩
  refine ⟨hready _ _ trivial, fun rotatedAt => ?_⟩
  have h₂ : Since Op.Quiet past (⟨.now, rotatedAt⟩ :: past₂) := h₁.cons trivial
  refine obeys_assert (fun _ => ?_) (fun _ => ⟨h₂, by simp⟩)
  refine obeys_assert (fun _ => ?_) (fun _ => ⟨h₂, by simp⟩)
  refine ⟨h₂, ?_⟩
  rintro raw' s hs
  obtain ⟨rfl, rfl⟩ : raw = raw' ∧ replacementOf live (d.digest raw) familyId generation rotatedAt = s := by
    simpa using hs
  obtain ⟨rfl, hchecks⟩ := hgeneration generation rfl
  have hcons : Since Op.Quiet past₂ (⟨.now, rotatedAt⟩ :: past₂) := (Since.refl past₂).cons trivial
  exact ⟨familyId, rotatedAt, rfl, hcons.mem (hsince₁.mem (by simp)),
    (hfamily familyId rfl hvalid).since hcons, hchecks⟩

theorem Minted.since {past' : Past} {live r : Session} {raw : String}
    (h : Minted d past live raw r) (hsince : Since Op.Quiet past past') :
    Minted d past' live raw r := by
  obtain ⟨familyId, rotatedAt, hr, hraw, hfamily, hchecks⟩ := h
  exact ⟨familyId, rotatedAt, hr, hsince.mem hraw, hfamily.since hsince, hchecks⟩

/-! ## Redeeming -/

/-- What the call first learned, it has still learned first. -/
theorem Presented.since {P : Op → Prop} {req : RefreshRequest} {past' : Past} {live : Session}
    (h : Presented d req past live) (hsince : Since P past past') :
    Presented d req past' live := by
  obtain h | ⟨retiredAt, now, hfirst, hnow, hgrace⟩ := h
  · exact .inl (first_since h hsince)
  · exact .inr ⟨retiredAt, now, first_since hfirst hsince, hsince.mem hnow, hgrace⟩

theorem auditSuccessfulRefresh_only (userId familyId : String) (generation : UInt32)
    (viaGrace : Bool) (request : RefreshRequest) :
    (auditSuccessfulRefresh d userId familyId generation viaGrace request).Only Op.Quiet :=
  (assert_only _).bind fun _ => (assert_only _).bind fun _ => emitMandatoryAuditEvent_only d _

/-- A build of an access token yields a token that names the given family. -/
theorem buildAccessToken_obeys {ready : Past → Op → Prop} (user : User) (familyId : String)
    (hready : ∀ past o, Op.Quiet o → ready past o) :
    (buildAccessToken d user familyId).Obeys ready (fun past' r => Since Op.Quiet past past' ∧
      ∀ token ttl, r = .ok (token, ttl) → token.claims.sid = familyId) past := by
  unfold buildAccessToken
  refine obeys_assert (fun _ => ?_) (fun _ => ⟨.refl past, by simp⟩)
  refine obeys_assert (fun _ => ?_) (fun _ => ⟨.refl past, by simp⟩)
  refine ⟨hready _ _ trivial, fun now => ?_⟩
  have hnow : Since Op.Quiet past (⟨.now, now⟩ :: past) := (Since.refl past).cons trivial
  refine ((addU64_only d _ _).obeys hready).bind ?_ (fun past' e h => ⟨hnow.trans h, by simp⟩)
  intro past₁ exp h₁
  refine ⟨hready _ _ trivial, ?_⟩
  rintro (e | signature)
  · exact ⟨(hnow.trans h₁).cons trivial, by simp⟩
  · refine ⟨(hnow.trans h₁).cons trivial, ?_⟩
    rintro token ttl hok
    obtain ⟨rfl, -⟩ : _ = token ∧ _ = ttl := by simpa using hok
    rfl

section Redeeming

variable {d} {req : RefreshRequest} {live : Session}

/-- After a won swap, what is left is quiet and answers with the minted token. -/
theorem respondToRotation_obeys (user : User) {raw : String} {r : Session} (viaGrace won : Bool)
    (hpresented : Presented d req past live) (hminted : Minted d past live raw r)
    (hmem : ⟨.rotateRefreshToken live.refreshTokenHash r, .ok won⟩ ∈ past) :
    (respondToRotation d user raw r viaGrace won req).Obeys (Ready d (.refresh req))
      (fun past' result => Presented d req past' live ∧
        ∀ response, result = .ok response → Redeemed d req past' response) past := by
  have hready := ready_of_quiet d (.refresh req)
  unfold respondToRotation
  split
  · rename_i hwon
    subst hwon
    refine (buildAccessToken_obeys d user r.familyId hready).bind ?_
      (fun past' e h => ⟨hpresented.since d h.1, by simp⟩)
    rintro past₁ ⟨token, ttl⟩ ⟨h₁, hsid⟩
    refine ((auditSuccessfulRefresh_only d _ _ _ _ _).obeys hready).bind ?_
      (fun past' e h => ⟨hpresented.since d (h₁.trans h), by simp⟩)
    intro past₂ _ h₂
    have hsince := h₁.trans h₂
    refine ⟨hpresented.since d hsince, ?_⟩
    rintro response ⟨⟩
    exact ⟨live, raw, r, hpresented.since d hsince, hminted.since d hsince, hsince.mem hmem,
      rfl, hsid token ttl rfl⟩
  · exact refuseWithValidationFailed_obeys d _ _ _ hready
      fun past' e h => ⟨hpresented.since d h, by simp⟩

/-- Rotating from `live` swaps only after the gates and the mint, and returns tokens only
after a won swap. -/
theorem rotateAndRespond_obeys (viaGrace : Bool) (hrotation : d.refreshRotation = true)
    (hpresented : Presented d req past live) (halone : NoInstall past) :
    (rotateAndRespond d live viaGrace req).Obeys (Ready d (.refresh req))
      (fun past' result => Presented d req past' live ∧
        ∀ response, result = .ok response → Redeemed d req past' response) past := by
  have hready := ready_of_quiet d (.refresh req)
  have hfail : ∀ past' (e : Fault Error), Since Op.Quiet past past' →
      Presented d req past' live ∧
        ∀ response, (.error e : Except (Fault Error) TokenResponse) = .ok response →
          Redeemed d req past' response :=
    fun past' e h => ⟨hpresented.since d h, by simp⟩
  unfold rotateAndRespond
  refine obeys_assert (fun _ => ?_) (fun _ => hfail _ _ (.refl past))
  refine ⟨hready _ _ trivial, fun now => ?_⟩
  have hnow : Since Op.Quiet past (⟨.now, now⟩ :: past) := (Since.refl past).cons trivial
  -- the expiry gate
  show (if live.expiresAt < now then _ else _ : Service Error TokenResponse).Obeys _ _ _
  split
  · exact refuseWithValidationFailed_obeys d _ _ _ hready fun past' e h => hfail _ _ (hnow.trans h)
  -- the user gate
  refine ⟨hready _ _ trivial, ?_⟩
  have huser := fun ans => hnow.cons (e := ⟨.getUserById live.userId, ans⟩) (P := Op.Quiet) trivial
  rintro (e | (_ | user))
  · exact hfail _ _ (huser _)
  · exact refuseWithValidationFailed_obeys d _ _ _ hready
      fun past' e h => hfail _ _ ((huser _).trans h)
  show (if user.status ≠ .active then refuseSuspended d user req else _ :
    Service Error TokenResponse).Obeys _ _ _
  split
  · exact refuseSuspended_obeys d _ _ hready fun past' e h => hfail _ _ ((huser _).trans h)
  rename_i hactive
  -- the mint and the swap
  refine (mintReplacement_obeys d live hready).bind ?_
    (fun past' e h => hfail _ _ ((huser _).trans h.1))
  rintro past₁ ⟨raw, r⟩ ⟨h₁, hminted⟩
  have hsince := (huser (.ok (some user))).trans h₁
  have hm := hminted raw r rfl
  have hsaw : SawActive past₁ live.userId :=
    ⟨user, h₁.mem (by simp), by simpa using hactive⟩
  refine ⟨⟨req, rfl, hrotation, ⟨live, raw, hpresented.since d hsince, rfl, hm, hsaw⟩,
    halone.since hsince⟩, ?_⟩
  have happend := fun ans => (Since.refl past₁).cons (P := fun _ => True)
    (e := ⟨.rotateRefreshToken live.refreshTokenHash r, ans⟩) trivial
  have hstill := fun ans => (hpresented.since d hsince).since d (happend ans)
  rintro (e | won)
  · exact ⟨hstill _, by simp⟩
  · refine respondToRotation_obeys user viaGrace won (hstill _) ?_ (by simp)
    obtain ⟨familyId, rotatedAt, hr, hraw, hfamily, hchecks⟩ := hm
    exact ⟨familyId, rotatedAt, hr, (happend _).mem hraw,
      ⟨hfamily.1, hfamily.2.imp (fun h => ⟨h.1, (happend _).mem h.2⟩) id⟩, hchecks⟩

/-- The reuse branch never returns tokens, and it revokes the family unless an assertion
about the family or the user fails. -/
theorem revokeFamilyForReuse_obeys {familyId userId : String}
    (hrotation : d.refreshRotation = true)
    (hreuse : ReusePresented d req past familyId userId) :
    (revokeFamilyForReuse d familyId userId req).Obeys (Ready d (.refresh req))
      (fun past' (result : Except (Fault Error) TokenResponse) =>
        Since (fun _ => True) past past' ∧ (∃ e, result = .error e) ∧
        (isValidFamilyId familyId = true → userId ≠ "" →
          ∃ ans, ⟨.revokeFamily familyId, ans⟩ ∈ past')) past := by
  have hready := ready_of_quiet d (.refresh req)
  unfold revokeFamilyForReuse
  refine obeys_assert (fun hvalid => ?_) (fun hno => ⟨.refl past, ⟨_, rfl⟩, by simp [hno]⟩)
  refine obeys_assert (fun _ => ?_) (fun hno => ⟨.refl past, ⟨_, rfl⟩, fun _ hne => ?_⟩)
  · refine ⟨⟨req, rfl, hrotation, ⟨userId, hreuse⟩, hvalid⟩, ?_⟩
    have hrevoked := fun ans => (Since.refl past).cons (P := fun _ => True)
      (e := ⟨.revokeFamily familyId, ans⟩) trivial
    have hall : ∀ past' ans (e : Fault Error),
        Since Op.Quiet (⟨.revokeFamily familyId, ans⟩ :: past) past' →
        Since (fun _ => True) past past' ∧
          (∃ e', (.error e : Except (Fault Error) TokenResponse) = .error e') ∧
          (isValidFamilyId familyId = true → userId ≠ "" →
            ∃ ans, ⟨.revokeFamily familyId, ans⟩ ∈ past') := by
      intro past' ans e h
      obtain ⟨more, rfl, -⟩ := h
      refine ⟨(hrevoked ans).trans ⟨more, rfl, by simp⟩, ⟨e, rfl⟩, fun _ _ => ⟨ans, by simp⟩⟩
    rintro (e | count)
    · exact hall _ _ e (.refl _)
    · refine obeys_assert (fun _ => ?_) (fun _ => hall _ _ _ (.refl _))
      exact obeys_then_fail (emitMandatoryAuditEvent_only d _) hready fun past' e h => hall _ _ e h
  · exact absurd hno (by simpa using hne)

end Redeeming

/-! ## The whole flow -/

theorem refreshWithoutRotation_only (resolution : RefreshResolution) (request : RefreshRequest) :
    (refreshWithoutRotation d resolution request).Only Op.Quiet := by
  have hrefuse : ∀ reason actor, (refuseWithValidationFailed (α := TokenResponse) d reason actor
      request).Only Op.Quiet := fun reason actor =>
    (assert_only _).bind fun _ => (emitAudit_only d _).bind fun _ => fail_only _
  cases resolution with
  | superseded live retiredAt => exact hrefuse _ _
  | retired familyId userId retiredAt => exact hrefuse _ _
  | unknown => exact hrefuse _ _
  | live session =>
    refine (assert_only _).bind fun _ => ⟨trivial, fun now => ?_⟩
    show (if session.expiresAt < now then _ else _ : Service Error TokenResponse).Only _
    split
    · exact hrefuse _ _
    refine ⟨trivial, ?_⟩
    rintro (e | (_ | user))
    · trivial
    · exact hrefuse _ _
    show (if user.status ≠ .active then refuseSuspended d user request else _ :
      Service Error TokenResponse).Only _
    split
    · exact (emitMandatoryAuditEvent_only d _).bind fun _ => fail_only _
    · refine (buildAccessToken_only d _ _).bind fun _ => ?_
      exact (auditSuccessfulRefresh_only d _ _ _ _ _).bind fun _ => trivial

/-- A call that was granted grace has read the clock. -/
theorem Presented.clocked {d : Deployment} {req : RefreshRequest} {live s : Session}
    {retiredAt : Instant} (h : Presented d req past live)
    (hfirst : first past = some ⟨.resolveRefreshToken (d.digest req.refreshToken),
      .ok (.superseded s retiredAt)⟩) : ∃ now, ⟨.now, now⟩ ∈ past := by
  obtain hlive | ⟨_, now, _, hnow, _⟩ := h
  · simp [hlive] at hfirst
  · exact ⟨now, hnow⟩

/-- The result of a refresh as a response of the service. -/
def tokensOf (result : Except (Fault Error) TokenResponse) : Except (Fault Error) Response :=
  result.map .tokens

/-- What the classification leads to complies, whatever it is. -/
theorem redeem_obeys {req : RefreshRequest} (hrotation : d.refreshRotation = true)
    (resolution : RefreshResolution)
    (hfirst : first past = some ⟨.resolveRefreshToken (d.digest req.refreshToken),
      .ok resolution⟩) (halone : NoInstall past) :
    (redeem d resolution req).Obeys (Ready d (.refresh req))
      (fun past' result => RefreshOutcome d req past' (tokensOf result)) past := by
  have hready := ready_of_quiet d (.refresh req)
  -- a call that ends with an error has an admitted outcome when reuse was dealt with
  have hresolved : ∀ {P : Op → Prop} {past'}, Since P past past' →
      first past' = some ⟨.resolveRefreshToken (d.digest req.refreshToken), .ok resolution⟩ :=
    fun h => first_since hfirst h
  cases resolution with
  | unknown =>
    refine refuseWithValidationFailed_obeys d _ _ _ hready fun past' e h => ?_
    refine ⟨by simp [tokensOf, Except.map], fun _ => ⟨_, hresolved h⟩, by simp [hresolved h], ?_⟩
    rintro familyId userId (⟨retiredAt, hr⟩ | ⟨live, retiredAt, now, hr, -⟩) <;>
      simp [hresolved h] at hr
  | live session =>
    refine (rotateAndRespond_obeys false hrotation (.inl hfirst) halone).mono ?_
    rintro past' result ⟨hpresented, hok⟩
    refine ⟨?_, fun _ => ?_, fun _ _ => hpresented.clocked, fun _ _ _ _ _ => .inl ⟨_, hpresented⟩⟩
    · intro response hresponse
      cases result with
      | error e => simp [tokensOf, Except.map] at hresponse
      | ok tokens =>
        obtain rfl : Response.tokens tokens = response := by
          simpa [tokensOf, Except.map] using hresponse
        exact ⟨tokens, rfl, hok tokens rfl⟩
    · obtain h | ⟨retiredAt, now, h, -⟩ := hpresented
      · exact ⟨_, h⟩
      · exact ⟨_, h⟩
  | superseded live retiredAt =>
    refine obeys_assert (fun _ => ?_) (fun hno => ?_)
    · refine ⟨hready _ _ trivial, fun now => ?_⟩
      have hnow : Since Op.Quiet past (⟨.now, now⟩ :: past) := (Since.refl past).cons trivial
      show (if withinGrace now retiredAt d.refreshRotationGrace = true then _ else _ :
        Service Error TokenResponse).Obeys _ _ _
      split
      · rename_i hgrace
        refine (rotateAndRespond_obeys true hrotation
          (.inr ⟨retiredAt, now, hresolved hnow, by simp, hgrace⟩) (halone.since hnow)).mono ?_
        rintro past' result ⟨hpresented, hok⟩
        refine ⟨?_, fun _ => ?_, fun _ _ => hpresented.clocked, fun _ _ _ _ _ => .inl ⟨_, hpresented⟩⟩
        · intro response hresponse
          cases result with
          | error e => simp [tokensOf, Except.map] at hresponse
          | ok tokens =>
            obtain rfl : Response.tokens tokens = response := by
              simpa [tokensOf, Except.map] using hresponse
            exact ⟨tokens, rfl, hok tokens rfl⟩
        · obtain h | ⟨_, _, h, -⟩ := hpresented
          · exact ⟨_, h⟩
          · exact ⟨_, h⟩
      · rename_i hlate
        have hreuse : ReusePresented d req (⟨.now, now⟩ :: past) live.familyId live.userId :=
          .inr ⟨live, retiredAt, now, hresolved hnow, rfl, rfl, by simp, by simpa using hlate⟩
        refine (revokeFamilyForReuse_obeys hrotation hreuse).mono ?_
        rintro past' _ ⟨h, ⟨e, rfl⟩, hrevoked⟩
        have hfirst' := first_since (hresolved hnow) h
        refine ⟨by simp [tokensOf, Except.map], fun _ => ⟨_, hfirst'⟩,
          fun _ _ _ => ⟨now, h.mem (by simp)⟩, ?_⟩
        rintro familyId userId (⟨_, hr⟩ | ⟨live', _, _, hr, rfl, rfl, -⟩) hvalid huser
        · simp [hfirst'] at hr
        · obtain ⟨rfl, -⟩ : live = live' ∧ _ := by simpa [hfirst'] using hr
          exact .inr (hrevoked hvalid huser)
    · obtain ⟨hpos, hle⟩ := d.grace_bounded
      simp [hpos, hle] at hno
  | retired familyId userId retiredAt =>
    have hreuse : ReusePresented d req past familyId userId := .inl ⟨retiredAt, hfirst⟩
    refine (revokeFamilyForReuse_obeys hrotation hreuse).mono ?_
    rintro past' _ ⟨h, ⟨e, rfl⟩, hrevoked⟩
    refine ⟨by simp [tokensOf, Except.map], fun _ => ⟨_, hresolved h⟩, by simp [hresolved h], ?_⟩
    rintro familyId' userId' (⟨_, hr⟩ | ⟨live', _, _, hr, -⟩) hvalid huser
    · obtain ⟨rfl, rfl, -⟩ : familyId = familyId' ∧ userId = userId' ∧ _ := by
        simpa [hresolved h] using hr
      exact .inr (hrevoked hvalid huser)
    · simp [hresolved h] at hr

/-- **Every refresh complies.** -/
theorem refresh_obeys (req : RefreshRequest) :
    (refresh d req).Obeys (Ready d (.refresh req))
      (fun past result => d.refreshRotation = true →
        RefreshOutcome d req past (tokensOf result)) [] := by
  have hready := ready_of_quiet d (.refresh req)
  unfold refresh
  refine obeys_assert (fun _ => ?_) (fun hno _ => ?_)
  · refine obeys_assert (fun _ => ?_) (fun hno => ?_)
    · refine ⟨hready _ _ trivial, ?_⟩
      rintro (e | resolution)
      · intro _
        refine ⟨by simp [tokensOf, Except.map], fun _ => ⟨_, rfl⟩, by simp, ?_⟩
        rintro familyId userId (⟨_, hr⟩ | ⟨_, _, _, hr, -⟩) <;> simp at hr
      · show (if d.refreshRotation = true then _ else _ :
          Service Error TokenResponse).Obeys _ _ _
        split
        · rename_i hrotation
          refine (redeem_obeys d hrotation resolution rfl (by simp [Op.Installs])).mono ?_
          exact fun past' result h _ => h
        · rename_i hoff
          refine ((refreshWithoutRotation_only d resolution req).obeys hready).mono ?_
          exact fun past' result _ hon => absurd hon hoff
    · exact absurd hno (by simp [d.digest_length])
  · refine ⟨by simp [tokensOf, Except.map], fun hne => absurd hno (by simpa using hne),
      by simp [first], ?_⟩
    rintro familyId userId (⟨_, hr⟩ | ⟨_, _, _, hr, -⟩) <;> simp [first] at hr

end OidcExchange
