import OidcExchange.Analysis.FamilyChain

/-!
# The end of a refresh family

A family that had a generation and has no live one has ended: a swap needs a live
generation to replace, and a new family is never an old one. A revocation ends the
family it names. What it cannot take back is a response whose swap was committed
before it: that call may still return, with a token that no longer works.
-/

set_option autoImplicit false

namespace OidcExchange

open Storage Interleaving Service

/-- The family had a generation and has no live one. -/
structure Ended (m : ServiceMoment) (familyId : String) : Prop where
  founded : generations m familyId ≠ []
  noLive : ∀ h s, m.world.sessions.lookup h = some s → s.familyId ≠ familyId

/-- The swaps won in a family, with the calls that won them. -/
def winners (m : ServiceMoment) (familyId : String) : List (ℕ × String × Session) :=
  (rotations m).filter fun e => e.2.2.familyId == familyId

/-- A revocation of the family by call `c` has been answered with a count. -/
def RevokedBy (m : ServiceMoment) (c : ℕ) (familyId : String) : Prop :=
  ∃ count, .performed c (.revokeFamily familyId) (.ok count) ∈ m.history

variable {d : Deployment} {m : ServiceMoment} {familyId : String}

namespace Ended

/-- What does not install and only shrinks the store keeps a family ended. -/
theorem shrink {m' : ServiceMoment} (h : Ended m familyId) (hi : installs m' = installs m)
    (hw : m.world.Shrinks m'.world) : Ended m' familyId where
  founded := by
    simp only [generations, hi]
    exact h.founded
  noLive k s hs := h.noLive k s (hw.sessions k s hs)

/-- **An ended family stays ended**: no operation installs a generation in it, and no
swap in it is won. -/
theorem performs (hl : Lineage d m) (htruth : Truthful m) (h : Ended m familyId)
    {request : Request} {c : ℕ} {x : Choice} {o : Op} {ans : Ans o} {w : World}
    (hready : Ready d request (m.past c) o) (hex : exec d x c o m.world = some (ans, w)) :
    Ended (m.performed c o ans w) familyId ∧
      generations (m.performed c o ans w) familyId = generations m familyId ∧
      winners (m.performed c o ans w) familyId = winners m familyId := by
  cases storeStep_of_exec hex with
  | drew raw _ => exact ⟨⟨h.founded, h.noLive⟩, rfl, rfl⟩
  | drewFamily drawn _ _ => exact ⟨⟨h.founded, h.noLive⟩, rfl, rfl⟩
  | stored s =>
    -- a session is stored in a family that was drawn for it
    obtain ⟨req, -, ⟨user, raw, drawn, expiresAt, createdAt, rfl, -, -, hfamily, -⟩,
      halone⟩ := hready
    have hne : drawn ≠ familyId := by
      rintro rfl
      exact h.founded (hl.fresh_family halone (Moment.mem_collect_of_past hfamily rfl))
    generalize hs : firstGeneration req user (d.digest raw) drawn expiresAt createdAt = s
    have hfam : s.familyId = drawn := by rw [← hs]; rfl
    have hi : installs (m.performed c (.storeRefreshToken s) (.ok ())
        { m.world with sessions := m.world.sessions.insert s.refreshTokenHash s }) =
        (c, s) :: installs m := Moment.collect_performed_some installOf m _ rfl
    have hg : generations (m.performed c (.storeRefreshToken s) (.ok ())
        { m.world with sessions := m.world.sessions.insert s.refreshTokenHash s }) familyId =
        generations m familyId := by
      rw [Lineage.generations_of_cons hi, if_neg (hfam ▸ hne)]
    refine ⟨⟨hg ▸ h.founded, fun k t ht => ?_⟩, hg, ?_⟩
    · change (m.world.sessions.insert s.refreshTokenHash s).lookup k = some t at ht
      rw [Table.lookup_insert_ite] at ht
      split at ht
      · obtain rfl := Option.some.inj ht
        exact hfam ▸ hne
      · exact h.noLive k t ht
    · simp only [winners, rotations]
      rw [Moment.collect_performed_none rotationOf m _ rfl]
  | rotated k r live retired hlive _ _ _ =>
    -- a swap replaces a live generation by one of the same family
    obtain ⟨hsucc, -⟩ := succeeds_of_rotateReady hl htruth hready hlive
    have hne : r.familyId ≠ familyId := hsucc.same.familyId.symm ▸ h.noLive k live hlive
    have hi : installs (m.performed c (.rotateRefreshToken k r) (.ok true)
        { m.world with sessions := (m.world.sessions.erase k).insert r.refreshTokenHash r,
                       retired := retired }) = (c, r) :: installs m :=
      Moment.collect_performed_some installOf m _ rfl
    have hr : rotations (m.performed c (.rotateRefreshToken k r) (.ok true)
        { m.world with sessions := (m.world.sessions.erase k).insert r.refreshTokenHash r,
                       retired := retired }) = (c, k, r) :: rotations m :=
      Moment.collect_performed_some rotationOf m _ rfl
    have hg := Lineage.generations_of_cons hi familyId
    rw [if_neg hne] at hg
    refine ⟨⟨hg ▸ h.founded, fun k' t ht => ?_⟩, hg, ?_⟩
    · change ((m.world.sessions.erase k).insert r.refreshTokenHash r).lookup k' = some t at ht
      rw [Table.lookup_insert_ite] at ht
      split at ht
      · obtain rfl := Option.some.inj ht
        exact hne
      · exact h.noLive k' t (lookup_of_erase ht)
    · simp only [winners, hr, List.filter_cons, beq_iff_eq]
      rw [if_neg hne]
  | shrank hunseen hshrinks =>
    have hi := Moment.collect_performed_none (c := c) _ m w hunseen.install
    have hr := Moment.collect_performed_none (c := c) _ m w hunseen.rotation
    refine ⟨h.shrink hi hshrinks, ?_, ?_⟩
    · simp only [generations, installs, hi]
    · simp only [winners, rotations, hr]

/-- A revocation ends the family it names. -/
theorem of_revokeFamily (htruth : Truthful m) (hl : Lineage d m) {request : Request} {c : ℕ}
    {x : Choice} {count : ℕ} {w : World}
    (hready : Ready d request (m.past c) (.revokeFamily familyId))
    (hex : exec d x c (.revokeFamily familyId) m.world = some (.ok count, w)) :
    Ended (m.performed c (.revokeFamily familyId) (.ok count) w) familyId where
  founded := by
    obtain ⟨req, -, -, ⟨userId, hreuse⟩, -⟩ := hready
    -- the family was named by a classification, so it has a generation
    have hgen : generations m familyId ≠ [] := by
      obtain ⟨retiredAt, hfirst⟩ | ⟨live, retiredAt, now, hfirst, rfl, -⟩ := hreuse
      · obtain ⟨c', r, hmem, rfl, -⟩ :=
          htruth c _ _ ((Moment.mem_past ..).mp (Past.mem_of_first hfirst))
        exact List.ne_nil_of_mem (mem_generations.mpr ⟨⟨c', (hl.rotated_from c' _ r hmem).1⟩, rfl⟩)
      · obtain ⟨c', hmem⟩ := htruth c _ _ ((Moment.mem_past ..).mp (Past.mem_of_first hfirst))
        exact List.ne_nil_of_mem
          (mem_generations.mpr ⟨⟨c', (hl.rotated_from c' _ live hmem).1⟩, rfl⟩)
    exact hgen
  noLive := (revokeFamily_leaves hex).1

end Ended

/-- Every revocation so far has ended its family. -/
def RevocationsFinal (m : ServiceMoment) : Prop :=
  ∀ c familyId, RevokedBy m c familyId → Ended m familyId

/-- Revocations are final, in every run. -/
def revocationProtocol (d : Deployment) : Protocol (portSemantics d) (Ready d) where
  inv m := (Lineage d m ∧ Truthful m) ∧ RevocationsFinal m
  allowed _ _ _ _ := True
  begins := fun {m c i} h hunseen => by
    refine ⟨(lineageProtocol d).begins h.1 hunseen, ?_⟩
    rintro c' familyId ⟨count, hmem⟩
    have hmem : .performed c' (.revokeFamily familyId) (.ok count) ∈ m.history := by
      simpa using hmem
    exact (h.2 c' familyId ⟨count, hmem⟩).shrink rfl (.refl _)
  performs := fun {m c i x o ans w} h hrunning hready _ hex => by
    refine ⟨(lineageProtocol d).performs h.1 hrunning hready trivial hex, ?_⟩
    rintro c' familyId ⟨count, hmem⟩
    rcases List.mem_cons.mp hmem with heq | hmem
    · cases heq
      exact .of_revokeFamily h.1.2 h.1.1 hready hex
    · exact ((h.2 c' familyId ⟨count, hmem⟩).performs h.1.1 h.1.2 hready hex).1
  ends := fun {m c i} h hrunning => by
    refine ⟨(lineageProtocol d).ends h.1 hrunning, ?_⟩
    rintro c' familyId ⟨count, hmem⟩
    have hmem : .performed c' (.revokeFamily familyId) (.ok count) ∈ m.history := by
      simpa using hmem
    exact (h.2 c' familyId ⟨count, hmem⟩).shrink rfl (.refl _)
  drifts := fun {m k w} h hdrift =>
    ⟨(lineageProtocol d).drifts h.1 hdrift, fun c' familyId hr =>
      (h.2 c' familyId hr).shrink rfl (shrinks_of_drift hdrift).1⟩

/-- Once a family has ended, its generations and its swaps stay what they are. -/
def endedProtocol (d : Deployment) (familyId : String) (gens : List Session)
    (won : List (ℕ × String × Session)) : Protocol (portSemantics d) (Ready d) where
  inv m := (Lineage d m ∧ Truthful m) ∧ Ended m familyId ∧ generations m familyId = gens ∧
    winners m familyId = won
  allowed _ _ _ _ := True
  begins h hunseen := ⟨(lineageProtocol d).begins h.1 hunseen, h.2.1.shrink rfl (.refl _), h.2.2⟩
  performs := fun {m c i x o ans w} h hrunning hready _ hex => by
    obtain ⟨hended, hgens, hwon⟩ := h.2.1.performs h.1.1 h.1.2 hready hex
    exact ⟨(lineageProtocol d).performs h.1 hrunning hready trivial hex, hended,
      hgens.trans h.2.2.1, hwon.trans h.2.2.2⟩
  ends h hrunning := ⟨(lineageProtocol d).ends h.1 hrunning, h.2.1.shrink rfl (.refl _), h.2.2⟩
  drifts h hdrift := ⟨(lineageProtocol d).drifts h.1 hdrift,
    h.2.1.shrink rfl (shrinks_of_drift hdrift).1, h.2.2⟩

section Runs

variable {meets meets' : ServicePool → ServiceAct → Prop} {clock : Instant} {p q : ServicePool}
  {as as' : List ServiceAct} {c : ℕ}

/-- In every run, a revocation has ended its family. -/
theorem ended_of_revokedBy (hrun : (service d).Run meets (ServicePool.start clock) as p)
    (hrevoked : RevokedBy p.toMoment c familyId) : Ended p.toMoment familyId := by
  have hstart : (revocationProtocol d).inv (ServicePool.start clock).toMoment :=
    ⟨lineage_start d clock, by
      rintro c familyId ⟨count, hmem⟩
      simp [ServicePool.start, Pool.initial] at hmem⟩
  exact ((revocationProtocol d).run (serve_obeys d) (hrun.mono fun _ _ _ _ _ _ _ => trivial)
    (Disciplined.initial _) hstart).2 c familyId hrevoked

/-- From the end of a family on, nothing is installed and nothing is swapped in it. -/
theorem unchanged_of_ended (hrun : (service d).Run meets (ServicePool.start clock) as p)
    (hended : Ended p.toMoment familyId) (hrun' : (service d).Run meets' p as' q) :
    Ended q.toMoment familyId ∧ generations q.toMoment familyId = generations p.toMoment familyId ∧
      winners q.toMoment familyId = winners p.toMoment familyId :=
  ((endedProtocol d familyId _ _).run (serve_obeys d) (hrun'.mono fun _ _ _ _ _ _ _ => trivial)
    (compliant_of_run d hrun) ⟨lineage_of_run hrun, hended, rfl, rfl⟩).2

/-- The response carries a token of the family: an access token that names it, or the
refresh token of one of its generations. -/
def TokenOf (d : Deployment) (m : ServiceMoment) (tokens : TokenResponse) (familyId : String) :
    Prop :=
  tokens.accessToken.claims.sid = familyId ∨
    ∃ raw, tokens.refreshToken = some raw ∧
      ∃ s ∈ generations m familyId, s.refreshTokenHash = d.digest raw

/-- **Reuse revocation is final**: after it, no generation of the family is live and none
is installed, and a call that returns a token of the family had won its swap before. -/
theorem revocation_final (hrotation : d.refreshRotation = true)
    (hrun : (service d).Run meets (ServicePool.start clock) as p)
    (hrevoked : RevokedBy p.toMoment c familyId) (hrun' : (service d).Run meets' p as' q) :
    (∀ h s, q.world.sessions.lookup h = some s → s.familyId ≠ familyId) ∧
      generations q.toMoment familyId = generations p.toMoment familyId ∧
      ∀ c' req tokens, q.Returned c' (.refresh req) (.tokens tokens) →
        TokenOf d q.toMoment tokens familyId →
        ∃ h r, ⟨.rotateRefreshToken h r, .ok true⟩ ∈ p.toMoment.past c' ∧ r.familyId = familyId := by
  obtain ⟨hended, hgens, hwon⟩ := unchanged_of_ended hrun (ended_of_revokedBy hrun hrevoked) hrun'
  refine ⟨hended.noLive, hgens, ?_⟩
  intro c' req tokens hreturned htoken
  obtain ⟨hl, -⟩ := (lineageProtocol d).run (serve_obeys d)
    (hrun'.mono fun _ _ _ _ _ _ _ => trivial) (compliant_of_run d hrun) (lineage_of_run hrun)
  have hcompliant := (compliant_of_run d hrun).run (serve_obeys d) hrun'
  obtain ⟨response, hresponse, live, raw, r, -, hminted, hswap, hraw, hsid⟩ :=
    (hcompliant.returned hreturned hrotation).redeemed _ rfl
  obtain rfl : tokens = response := by simpa using hresponse
  have hfamily : r.familyId = familyId := by
    obtain hnamed | ⟨raw', hraw', s, hs, hhash⟩ := htoken
    · exact hsid.symm.trans hnamed
    · -- the refresh token of the response belongs to the generation that was swapped in
      obtain rfl : raw = raw' := Option.some.inj (hraw.symm.trans hraw')
      obtain ⟨_, _, rfl, -⟩ := hminted
      obtain ⟨⟨c₁, hinstalled⟩, rfl⟩ := mem_generations.mp hs
      have hswapped := (hl.rotated_from c' _ _ (Moment.mem_collect_of_past hswap rfl)).1
      rw [(hl.install_unique hswapped hinstalled hhash.symm).2]
  -- the swap of the response is among those won before the revocation
  have hwinner : (c', live.refreshTokenHash, r) ∈ winners q.toMoment familyId :=
    List.mem_filter.mpr ⟨Moment.mem_collect_of_past hswap rfl, by simpa using hfamily⟩
  rw [hwon] at hwinner
  obtain ⟨o, ans, hperformed, hview⟩ := Moment.mem_collect.mp (List.mem_filter.mp hwinner).1
  have hpast := (Moment.mem_past _ _ _ _).mpr hperformed
  cases o with
  | rotateRefreshToken h r' =>
    rcases ans with e | (_ | _)
    · simp [rotationOf] at hview
    · simp [rotationOf] at hview
    · obtain ⟨rfl, rfl⟩ : h = live.refreshTokenHash ∧ r' = r := by simpa [rotationOf] using hview
      exact ⟨_, _, hpast, hfamily⟩
  | _ => simp [rotationOf] at hview

end Runs

/-! ## A response that outruns the revocation -/

namespace Sample

/-- The family is revoked and call `c` is still running. -/
def revokedWhileRunning (c : ℕ) (p : ServicePool) : Bool :=
  (p.history.any fun e => match e with
    | .performed _ (.revokeFamily f) (.ok _) => f == theFamily
    | _ => false) &&
  match p.calls c with
  | some ⟨_, .perform _ _⟩ => true
  | _ => false

/-- Call `c` has returned a token of the family. -/
def returnedToken (c : ℕ) (p : ServicePool) : Bool :=
  match p.calls c with
  | some ⟨.refresh _, .done (.tokens tokens)⟩ => tokens.accessToken.claims.sid == theFamily
  | _ => false

theorem revoked_of_test {c : ℕ} {p : ServicePool} (h : revokedWhileRunning c p = true) :
    (∃ c', RevokedBy p.toMoment c' theFamily) ∧ ∀ req a, ¬ p.Returned c req a := by
  simp only [revokedWhileRunning, Bool.and_eq_true, List.any_eq_true] at h
  obtain ⟨⟨e, hmem, he⟩, hrunning⟩ := h
  constructor
  · split at he
    · rename_i c' f count
      obtain rfl : f = theFamily := by simpa using he
      exact ⟨c', count, hmem⟩
    · exact absurd he (by simp)
  · intro req a hreturned
    simp [Pool.Returned] at hreturned
    simp [hreturned] at hrunning

theorem returned_of_test {c : ℕ} {p : ServicePool} (h : returnedToken c p = true) :
    ∃ req tokens, p.Returned c (.refresh req) (.tokens tokens) ∧
      tokens.accessToken.claims.sid = theFamily := by
  unfold returnedToken at h
  split at h
  · rename_i req tokens hc
    exact ⟨req, tokens, hc, by simpa using h⟩
  · exact absurd h (by simp)

/-- The token `a` is replaced by `b`, call 2 swaps `b` for `c` and has yet to respond, and
call 3 presents `a` and revokes the family. -/
def overtaken : List ServiceAct :=
  signIn "a" ++ refreshing 1 "a" "b" ++ call 2 (.refresh (present "b")) (swapChoices "c") ++
    call 3 (.refresh (present "a")) [.proceed, .proceed]

/-- The run above, and the response of call 2 after it. -/
theorem overtaken_run : ∃ p q c req tokens,
    (service (deployment false)).Run System.anyStep (ServicePool.start 0) overtaken p ∧
    RevokedBy p.toMoment c theFamily ∧ (∀ req a, ¬ p.Returned 2 req a) ∧
    (service (deployment false)).Run System.anyStep p (respondChoices.map (.advance 2)) q ∧
    q.Returned 2 (.refresh req) (.tokens tokens) ∧
    TokenOf (deployment false) q.toMoment tokens theFamily := by
  have hrun : ((service (deployment false)).follow (ServicePool.start 0) overtaken).any
      (fun p => revokedWhileRunning 2 p &&
        ((service (deployment false)).follow p (respondChoices.map (.advance 2))).any
          (returnedToken 2)) = true := by
    decide +kernel
  obtain ⟨p, hrun, htest⟩ := System.Run.of_follow_any hrun
  obtain ⟨hrevoked, hrest⟩ := Bool.and_eq_true _ _ ▸ htest
  obtain ⟨q, hrun', hreturned⟩ := System.Run.of_follow_any hrest
  obtain ⟨⟨c, hrevoked⟩, hrunning⟩ := revoked_of_test hrevoked
  obtain ⟨req, tokens, hreturned, hsid⟩ := returned_of_test hreturned
  exact ⟨p, q, c, req, tokens, hrun, hrevoked, hrunning, hrun', hreturned, .inl hsid⟩

end Sample

/-- In that run the swap was won before the revocation, and nothing of the family is left. -/
theorem revocation_final_overtaken : ∃ p q c as',
    (service (Sample.deployment false)).Run System.anyStep (ServicePool.start 0)
      Sample.overtaken p ∧
    RevokedBy p.toMoment c Sample.theFamily ∧
    (service (Sample.deployment false)).Run System.anyStep p as' q ∧
    (∀ h s, q.world.sessions.lookup h = some s → s.familyId ≠ Sample.theFamily) ∧
    ∃ h r, ⟨.rotateRefreshToken h r, .ok true⟩ ∈ p.toMoment.past 2 ∧
      r.familyId = Sample.theFamily := by
  obtain ⟨p, q, c, req, tokens, hrun, hrevoked, -, hrun', hreturned, htoken⟩ :=
    Sample.overtaken_run
  obtain ⟨hlive, -, hwon⟩ := revocation_final rfl hrun hrevoked hrun'
  exact ⟨p, q, c, _, hrun, hrevoked, hrun', hlive, hwon 2 req tokens hreturned htoken⟩

/-- **A call whose swap was committed before the revocation returns a token of the family
after it.** -/
theorem token_after_revocation : ∃ as p as' q c c' req tokens,
    (service (Sample.deployment false)).Run System.anyStep (ServicePool.start 0) as p ∧
    RevokedBy p.toMoment c Sample.theFamily ∧ (∀ req a, ¬ p.Returned c' req a) ∧
    (service (Sample.deployment false)).Run System.anyStep p as' q ∧
    q.Returned c' (.refresh req) (.tokens tokens) ∧
    TokenOf (Sample.deployment false) q.toMoment tokens Sample.theFamily := by
  obtain ⟨p, q, c, req, tokens, h⟩ := Sample.overtaken_run
  exact ⟨_, p, _, q, c, 2, req, tokens, h⟩

end OidcExchange
