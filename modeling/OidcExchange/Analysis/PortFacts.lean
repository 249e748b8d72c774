import OidcExchange.Model.Ports

/-!
# What one operation can do to the session store

An operation draws a fresh text, stores a session, swaps a live generation for its
replacement, or leaves the session store with nothing that was not there before
(`StoreStep`). The revocations leave nothing of the family or the user behind.
-/

set_option autoImplicit false

namespace OidcExchange

open Storage Interleaving

/-! ## What the history shows of an operation -/

/-- The session an operation has put into the store. -/
def installOf : (o : Op) → Ans o → Option Session
  | .storeRefreshToken s, .ok () => some s
  | .rotateRefreshToken _ r, .ok true => some r
  | _, _ => none

/-- The hash and the replacement of a swap that was won. -/
def rotationOf : (o : Op) → Ans o → Option (String × Session)
  | .rotateRefreshToken h r, .ok true => some (h, r)
  | _, _ => none

/-- The token an operation has drawn. -/
def drawOf : (o : Op) → Ans o → Option String
  | .randomToken, raw => some raw
  | _, _ => none

/-- The family an operation has drawn. -/
def familyDrawOf : (o : Op) → Ans o → Option String
  | .newFamilyId, familyId => some familyId
  | _, _ => none

/-- The operation changed nothing that the views above see. -/
structure Unseen (o : Op) (ans : Ans o) : Prop where
  install : installOf o ans = none
  rotation : rotationOf o ans = none
  draw : drawOf o ans = none
  familyDraw : familyDrawOf o ans = none

/-! ## Steps of the session store -/

/-- Time may have passed; nothing was drawn, and every row of the session store was
there before. -/
structure World.Shrinks (w w' : World) : Prop where
  clock : w.clock ≤ w'.clock
  tokens : w'.tokens = w.tokens
  familyIds : w'.familyIds = w.familyIds
  sessions : ∀ h s, w'.sessions.lookup h = some s → w.sessions.lookup h = some s
  retired : ∀ h r, w'.retired.lookup h = some r → w.retired.lookup h = some r

theorem World.Shrinks.refl (w : World) : w.Shrinks w :=
  ⟨Int.le_refl _, rfl, rfl, fun _ _ h => h, fun _ _ h => h⟩

/-- The record of a swap from `live` to `r` at the instant `now`. -/
structure RecordOf (h : String) (live r : Session) (now : Instant)
    (record : RetiredRefreshToken) : Prop where
  hash : record.refreshTokenHash = h
  family : record.familyId = live.familyId
  user : record.userId = live.userId
  successor : record.successorHash = r.refreshTokenHash
  retiredAt : record.retiredAt = now

/-- What the retired table holds after a swap: a row without a family leaves no
record. -/
def RetiresTo (w : World) (h : String) (live r : Session)
    (retired : Table String RetiredRefreshToken) : Prop :=
  (live.familyId = "" ∧ retired = w.retired) ∨
    ∃ record, RecordOf h live r w.clock record ∧ retired = w.retired.insert h record

/-- Everything an operation can do to the session store. -/
inductive StoreStep (d : Deployment) (w : World) : (o : Op) → Ans o → World → Prop
  | drew (raw : String) (fresh : d.digest raw ∉ w.tokens.map d.digest) :
      StoreStep d w .randomToken raw { w with tokens := raw :: w.tokens }
  | drewFamily (familyId : String) (valid : isValidFamilyId familyId = true)
      (fresh : familyId ∉ w.familyIds) :
      StoreStep d w .newFamilyId familyId { w with familyIds := familyId :: w.familyIds }
  | stored (s : Session) :
      StoreStep d w (.storeRefreshToken s) (.ok ())
        { w with sessions := w.sessions.insert s.refreshTokenHash s }
  | rotated (h : String) (r live : Session) (retired : Table String RetiredRefreshToken)
      (here : w.sessions.lookup h = some live) (user : live.userId = r.userId)
      (family : live.familyId ≠ "" → live.familyId = r.familyId)
      (retires : RetiresTo w h live r retired) :
      StoreStep d w (.rotateRefreshToken h r) (.ok true)
        { w with sessions := (w.sessions.erase h).insert r.refreshTokenHash r,
                 retired := retired }
  | shrank {o : Op} {ans : Ans o} {w' : World} (unseen : Unseen o ans) (shrinks : w.Shrinks w') :
      StoreStep d w o ans w'

section Exec

variable {d : Deployment} {x : Choice} {c : ℕ} {w w' : World}

/-- An operation that can fail either did what it does or failed without effect. -/
theorem fallible_eq_some {α : Type} {done : Answer α × World} {ans : Answer α}
    (h : fallible w x done = some (ans, w')) :
    done = (ans, w') ∨ ((∃ e, ans = .error (.error e)) ∧ w' = w) := by
  cases x with
  | proceed => exact .inl (Option.some.inj h)
  | fail e =>
    obtain ⟨rfl, rfl⟩ := Prod.mk.inj (Option.some.inj h)
    exact .inr ⟨⟨e, rfl⟩, rfl⟩
  | _ => exact absurd h (by simp [fallible])

/-- An operation whose effect is on other tables leaves the session store alone. -/
theorem storeStep_of_same {o : Op} {ans : Ans o} (hunseen : Unseen o ans)
    (hw : w' = w) : StoreStep d w o ans w' :=
  .shrank hunseen (hw ▸ .refl w)

theorem retirementRecord_recordOf {h : String} {live r : Session} {secs : UInt64} {now : Instant}
    {record : RetiredRefreshToken}
    (heq : World.retirementRecord h live r secs now = some record) :
    RecordOf h live r now record := by
  unfold World.retirementRecord at heq
  split at heq
  · split at heq
    · exact absurd heq (by simp)
    · obtain rfl := Option.some.inj heq
      exact ⟨rfl, rfl, rfl, rfl, rfl⟩
  · exact absurd heq (by simp)

/-- A swap either moved the live generation, or was not answered `true` and left the
store alone. -/
theorem rotateRefreshToken_cases (h : String) (r : Session) :
    (∃ live retired, w.sessions.lookup h = some live ∧ live.userId = r.userId ∧
      (live.familyId ≠ "" → live.familyId = r.familyId) ∧ RetiresTo w h live r retired ∧
      w.rotateRefreshToken d h r = (.ok true,
        { w with sessions := (w.sessions.erase h).insert r.refreshTokenHash r,
                 retired := retired })) ∨
    ((w.rotateRefreshToken d h r).1 ≠ .ok true ∧ (w.rotateRefreshToken d h r).2 = w) := by
  unfold World.rotateRefreshToken
  split
  · exact .inr ⟨by simp, rfl⟩
  split
  · exact .inr ⟨by simp, rfl⟩
  rename_i live hlive
  split
  · exact .inr ⟨by simp, rfl⟩
  rename_i hok
  simp only [not_or, not_and, not_not] at hok
  obtain ⟨hfamily, huser, -, -⟩ := hok
  dsimp only
  split
  · rename_i hlegacy
    exact .inl ⟨live, w.retired, hlive, huser, hfamily, .inl ⟨hlegacy, rfl⟩, rfl⟩
  split
  · exact .inr ⟨by simp, rfl⟩
  · rename_i record hrecord
    exact .inl ⟨live, _, hlive, huser, hfamily,
      .inr ⟨record, retirementRecord_recordOf hrecord, rfl⟩, rfl⟩

/-- Deleting by a predicate leaves only rows that were there and do not meet it. -/
theorem lookup_of_deleteWhere {κ ν : Type} [DecidableEq κ] {t : Table κ ν} {p : κ → ν → Bool}
    {k : κ} {v : ν} (h : (Table.deleteWhere t p).lookup k = some v) : t.lookup k = some v :=
  (Table.lookup_deleteWhere_eq_some.mp h).1

theorem lookup_of_erase {κ ν : Type} [DecidableEq κ] {t : Table κ ν} {k k' : κ} {v : ν}
    (h : (t.erase k).lookup k' = some v) : t.lookup k' = some v := by
  rw [Table.lookup_erase_ite] at h
  split at h
  · exact absurd h (by simp)
  · exact h

theorem revokeSession_shrinks (h : String) : w.Shrinks (w.revokeSession h).2 := by
  unfold World.revokeSession
  split
  · exact .refl w
  · exact ⟨Int.le_refl _, rfl, rfl, fun _ _ => lookup_of_erase, fun _ _ h => h⟩

theorem revokeFamily_shrinks (familyId : String) : w.Shrinks (w.revokeFamily familyId).2 := by
  unfold World.revokeFamily
  split
  · exact .refl w
  · exact ⟨Int.le_refl _, rfl, rfl, fun _ _ => lookup_of_deleteWhere, fun _ _ => lookup_of_deleteWhere⟩

theorem revokeAllUserSessions_shrinks (userId : String) :
    w.Shrinks (w.revokeAllUserSessions userId).2 :=
  ⟨Int.le_refl _, rfl, rfl, fun _ _ => lookup_of_deleteWhere, fun _ _ => lookup_of_deleteWhere⟩

theorem createUser_shrinks {id : String} {user : NewUser} {done : Answer User × World}
    (h : w.createUser id user = some done) : w.Shrinks done.2 := by
  unfold World.createUser at h
  split at h
  · exact absurd h (by simp)
  split at h
  all_goals
    obtain rfl := Option.some.inj h
    exact ⟨Int.le_refl _, rfl, rfl, fun _ _ h => h, fun _ _ h => h⟩

theorem writeUser_shrinks (userId : String) (version : ℕ) (user : User) :
    w.Shrinks (w.writeUser userId version user).2 := by
  unfold World.writeUser
  split
  · split <;> exact ⟨Int.le_refl _, rfl, rfl, fun _ _ h => h, fun _ _ h => h⟩
  · exact .refl w

/-- **Every operation is a step of the session store.** -/
theorem storeStep_of_exec {o : Op} {ans : Ans o} (h : exec d x c o w = some (ans, w')) :
    StoreStep d w o ans w' := by
  cases o with
  | now =>
    obtain ⟨rfl, rfl⟩ := Prod.mk.inj (Option.some.inj h)
    exact storeStep_of_same ⟨rfl, rfl, rfl, rfl⟩ rfl
  | randomToken =>
    cases x with
    | draw raw =>
      simp only [exec] at h
      split at h
      · exact absurd h (by simp)
      · rename_i hfresh
        obtain ⟨rfl, rfl⟩ := Prod.mk.inj (Option.some.inj h)
        exact .drew raw hfresh
    | _ => exact absurd h (by simp [exec])
  | newFamilyId =>
    cases x with
    | draw familyId =>
      simp only [exec] at h
      split at h
      · exact absurd h (by simp)
      · rename_i hok
        obtain ⟨hvalid, hfresh⟩ := not_or.mp hok
        obtain ⟨rfl, rfl⟩ := Prod.mk.inj (Option.some.inj h)
        exact .drewFamily familyId (by simpa using hvalid) hfresh
    | _ => exact absurd h (by simp [exec])
  | resolveRefreshToken tokenHash =>
    obtain hdone | ⟨-, hw⟩ := fallible_eq_some h
    · exact storeStep_of_same ⟨rfl, rfl, rfl, rfl⟩ (Prod.mk.inj hdone).2.symm
    · exact storeStep_of_same ⟨rfl, rfl, rfl, rfl⟩ hw
  | rotateRefreshToken liveHash r =>
    have hunseen : ans ≠ .ok true → Unseen (.rotateRefreshToken liveHash r) ans := by
      intro hne
      rcases ans with e | (_ | _)
      · exact ⟨rfl, rfl, rfl, rfl⟩
      · exact ⟨rfl, rfl, rfl, rfl⟩
      · exact absurd rfl hne
    obtain hdone | ⟨⟨e, rfl⟩, hw⟩ := fallible_eq_some h
    · obtain ⟨live, retired, hlive, huser, hfamily, hretires, heq⟩ | ⟨hne, hsame⟩ :=
        rotateRefreshToken_cases (d := d) (w := w) liveHash r
      · obtain ⟨rfl, rfl⟩ := Prod.mk.inj (heq.symm.trans hdone)
        exact .rotated liveHash r live retired hlive huser hfamily hretires
      · rw [hdone] at hne hsame
        exact storeStep_of_same (hunseen hne) hsame
    · exact storeStep_of_same ⟨rfl, rfl, rfl, rfl⟩ hw
  | storeRefreshToken s =>
    obtain hdone | ⟨⟨e, rfl⟩, hw⟩ := fallible_eq_some h
    · unfold World.storeRefreshToken at hdone
      split at hdone
      · obtain ⟨rfl, rfl⟩ := Prod.mk.inj hdone
        exact storeStep_of_same ⟨rfl, rfl, rfl, rfl⟩ rfl
      · obtain ⟨rfl, rfl⟩ := Prod.mk.inj hdone
        exact .stored s
    · exact storeStep_of_same ⟨rfl, rfl, rfl, rfl⟩ hw
  | revokeSession tokenHash =>
    obtain hdone | ⟨-, hw⟩ := fallible_eq_some h
    · exact .shrank ⟨rfl, rfl, rfl, rfl⟩ ((Prod.mk.inj hdone).2 ▸ revokeSession_shrinks tokenHash)
    · exact storeStep_of_same ⟨rfl, rfl, rfl, rfl⟩ hw
  | revokeFamily familyId =>
    obtain hdone | ⟨-, hw⟩ := fallible_eq_some h
    · have hw : (w.revokeFamily familyId).2 = w' := congrArg Prod.snd hdone
      exact .shrank ⟨rfl, rfl, rfl, rfl⟩ (hw ▸ revokeFamily_shrinks familyId)
    · exact storeStep_of_same ⟨rfl, rfl, rfl, rfl⟩ hw
  | revokeAllUserSessions userId =>
    obtain hdone | ⟨-, hw⟩ := fallible_eq_some h
    · have hw : (w.revokeAllUserSessions userId).2 = w' := congrArg Prod.snd hdone
      exact .shrank ⟨rfl, rfl, rfl, rfl⟩ (hw ▸ revokeAllUserSessions_shrinks userId)
    · exact storeStep_of_same ⟨rfl, rfl, rfl, rfl⟩ hw
  | createUser user =>
    cases x with
    | draw id =>
      exact .shrank ⟨rfl, rfl, rfl, rfl⟩ (createUser_shrinks h)
    | fail e =>
      obtain ⟨rfl, rfl⟩ := Prod.mk.inj (Option.some.inj h)
      exact storeStep_of_same ⟨rfl, rfl, rfl, rfl⟩ rfl
    | _ => exact absurd h (by simp [exec])
  | writeUser userId version user =>
    obtain hdone | ⟨-, hw⟩ := fallible_eq_some h
    · have hw : (w.writeUser userId version user).2 = w' := congrArg Prod.snd hdone
      exact .shrank ⟨rfl, rfl, rfl, rfl⟩ (hw ▸ writeUser_shrinks userId version user)
    · exact storeStep_of_same ⟨rfl, rfl, rfl, rfl⟩ hw
  | getUserById userId =>
    obtain hdone | ⟨-, hw⟩ := fallible_eq_some h
    · exact storeStep_of_same ⟨rfl, rfl, rfl, rfl⟩ (Prod.mk.inj hdone).2.symm
    · exact storeStep_of_same ⟨rfl, rfl, rfl, rfl⟩ hw
  | getUserByExternalId externalId provider =>
    obtain hdone | ⟨-, hw⟩ := fallible_eq_some h
    · exact storeStep_of_same ⟨rfl, rfl, rfl, rfl⟩ (Prod.mk.inj hdone).2.symm
    · exact storeStep_of_same ⟨rfl, rfl, rfl, rfl⟩ hw
  | emit event =>
    obtain hdone | ⟨-, hw⟩ := fallible_eq_some h
    · exact storeStep_of_same ⟨rfl, rfl, rfl, rfl⟩ (Prod.mk.inj hdone).2.symm
    · exact storeStep_of_same ⟨rfl, rfl, rfl, rfl⟩ hw
  | notify notice =>
    obtain hdone | ⟨-, hw⟩ := fallible_eq_some h
    · exact storeStep_of_same ⟨rfl, rfl, rfl, rfl⟩ (Prod.mk.inj hdone).2.symm
    · exact storeStep_of_same ⟨rfl, rfl, rfl, rfl⟩ hw
  | sign _ _ _ _
  | checkAndConsume _
  | exchangeCode _ _ _
  | validateIdToken _ _
  | bindAssertion _ _ =>
    cases x <;>
      first
      | exact storeStep_of_same ⟨rfl, rfl, rfl, rfl⟩ (Prod.mk.inj (Option.some.inj h)).2.symm
      | exact absurd h (by simp [exec])

end Exec

/-- Time passing and sweeping only shrink the session store. -/
theorem shrinks_of_drift {k : Drift} {w w' : World} (h : drift k w = some w') :
    w.Shrinks w' ∧ w'.users = w.users := by
  cases k with
  | tick nanos =>
    obtain rfl := Option.some.inj h
    exact ⟨⟨Int.le.intro nanos rfl, rfl, rfl, fun _ _ h => h, fun _ _ h => h⟩, rfl⟩
  | sweepSession tokenHash =>
    simp only [drift] at h
    split at h
    · split at h
      · obtain rfl := Option.some.inj h
        exact ⟨⟨Int.le_refl _, rfl, rfl, fun _ _ => lookup_of_erase, fun _ _ h => h⟩, rfl⟩
      · exact absurd h (by simp)
    · exact absurd h (by simp)
  | sweepRetired tokenHash =>
    simp only [drift] at h
    split at h
    · split at h
      · obtain rfl := Option.some.inj h
        exact ⟨⟨Int.le_refl _, rfl, rfl, fun _ _ h => h, fun _ _ => lookup_of_erase⟩, rfl⟩
      · exact absurd h (by simp)
    · exact absurd h (by simp)

/-! ## Steps of the user store -/

/-- The user an operation has created. -/
def createdOf : (o : Op) → Ans o → Option User
  | .createUser _, .ok user => some user
  | _, _ => none

/-- The identifier and the record of an update that was committed. -/
def writtenOf : (o : Op) → Ans o → Option (String × User)
  | .writeUser userId _ user, .ok true => some (userId, user)
  | _, _ => none

/-- Everything an operation can do to the user store. -/
inductive UserStep (w : World) : (o : Op) → Ans o → World → Prop
  | created (new : NewUser) (user : User) (fresh : w.users.lookup user.id = none)
      (named : user.id ≠ "") (active : user.status = .active) :
      UserStep w (.createUser new) (.ok user) { w with users := w.users.insert user.id user }
  | wrote (userId : String) (user stored : User) (here : w.users.lookup userId = some stored) :
      UserStep w (.writeUser userId stored.version user) (.ok true)
        { w with users := w.users.insert userId (stored.overwritten user) }
  | kept {o : Op} {ans : Ans o} {w' : World} (notCreated : createdOf o ans = none)
      (notWritten : writtenOf o ans = none) (users : w'.users = w.users) : UserStep w o ans w'

/-- **Every operation is a step of the user store.** -/
theorem userStep_of_exec {d : Deployment} {x : Choice} {c : ℕ} {w w' : World} {o : Op}
    {ans : Ans o} (h : exec d x c o w = some (ans, w')) : UserStep w o ans w' := by
  have hfallible : ∀ {α : Type} {done : Answer α × World} {ans : Answer α},
      fallible w x done = some (ans, w') → done.2.users = w.users → w'.users = w.users := by
    intro α done ans hf hsame
    obtain rfl | ⟨-, rfl⟩ := fallible_eq_some hf
    · exact hsame
    · rfl
  cases o with
  | createUser new =>
    cases x with
    | draw id =>
      change w.createUser id new = some (ans, w') at h
      unfold World.createUser at h
      split at h
      · exact absurd h (by simp)
      rename_i hid
      obtain ⟨hnamed, hfresh⟩ := not_or.mp hid
      split at h
      · obtain ⟨rfl, rfl⟩ := Prod.mk.inj (Option.some.inj h)
        exact .kept rfl rfl rfl
      · obtain ⟨rfl, rfl⟩ := Prod.mk.inj (Option.some.inj h)
        exact .created new _ (by simpa using hfresh) hnamed rfl
    | fail e =>
      obtain ⟨rfl, rfl⟩ := Prod.mk.inj (Option.some.inj h)
      exact .kept rfl rfl rfl
    | _ => exact absurd h (by simp [exec])
  | writeUser userId version user =>
    obtain hdone | ⟨⟨e, rfl⟩, rfl⟩ := fallible_eq_some h
    · obtain ⟨hans, hw⟩ := Prod.mk.inj hdone
      unfold World.writeUser at hans hw
      split at hans
      · rename_i stored hstored
        split at hans
        · rename_i hversion
          subst hans hw
          simp only [hstored, hversion, ↓reduceIte]
          exact hversion ▸ .wrote userId user stored hstored
        · rename_i hversion
          subst hans hw
          simp only [hstored, hversion, ↓reduceIte]
          exact .kept rfl rfl rfl
      · rename_i hnone
        subst hans hw
        simp only [hnone]
        exact .kept rfl rfl rfl
    · exact .kept rfl rfl rfl
  | rotateRefreshToken liveHash r =>
    refine .kept rfl rfl (hfallible h ?_)
    obtain ⟨_, _, -, -, -, -, heq⟩ | ⟨-, heq⟩ :=
      rotateRefreshToken_cases (d := d) (w := w) liveHash r
    · rw [heq]
    · rw [heq]
  | storeRefreshToken s =>
    refine .kept rfl rfl (hfallible h ?_)
    unfold World.storeRefreshToken
    split <;> rfl
  | revokeSession tokenHash =>
    refine .kept rfl rfl (hfallible h ?_)
    unfold World.revokeSession
    split <;> rfl
  | revokeFamily familyId =>
    refine .kept rfl rfl (hfallible h ?_)
    unfold World.revokeFamily
    split <;> rfl
  | resolveRefreshToken _
  | revokeAllUserSessions _
  | getUserById _
  | getUserByExternalId _ _
  | emit _
  | notify _ => exact .kept rfl rfl (hfallible h rfl)
  | now => exact .kept rfl rfl ((Prod.mk.inj (Option.some.inj h)).2 ▸ rfl)
  | randomToken
  | newFamilyId =>
    cases x with
    | draw text =>
      simp only [exec] at h
      split at h
      · exact absurd h (by simp)
      · obtain ⟨-, rfl⟩ := Prod.mk.inj (Option.some.inj h)
        exact .kept rfl rfl rfl
    | _ => exact absurd h (by simp [exec])
  | sign _ _ _ _
  | checkAndConsume _
  | exchangeCode _ _ _
  | validateIdToken _ _
  | bindAssertion _ _ =>
    cases x <;>
      first
      | exact .kept rfl rfl ((Prod.mk.inj (Option.some.inj h)).2 ▸ rfl)
      | exact absurd h (by simp [exec])

/-! ## What a classification says of the store -/

/-- The store is as the classification of `h` says. -/
def World.ShowsAs (w : World) (h : String) : RefreshResolution → Prop
  | .live s => w.sessions.lookup h = some s
  | .superseded s retiredAt => w.sessions.lookup h = none ∧
      ∃ record, w.retired.lookup h = some record ∧ record.retiredAt = retiredAt ∧
        w.sessions.lookup record.successorHash = some s
  | .retired familyId userId retiredAt => w.sessions.lookup h = none ∧
      ∃ record, w.retired.lookup h = some record ∧ record.retiredAt = retiredAt ∧
        record.familyId = familyId ∧ record.userId = userId ∧
        w.sessions.lookup record.successorHash = none
  | .unknown => w.sessions.lookup h = none

theorem World.showsAs_of_resolve {w : World} {h : String} {resolution : RefreshResolution}
    (heq : w.resolveRefreshToken h = .ok resolution) : w.ShowsAs h resolution := by
  unfold World.resolveRefreshToken at heq
  split at heq
  · exact absurd heq (by simp)
  split at heq
  · rename_i s hs
    obtain rfl := Except.ok.inj heq
    exact hs
  rename_i hnone
  split at heq
  · obtain rfl := Except.ok.inj heq
    exact hnone
  rename_i record hrecord
  split at heq
  · obtain rfl := Except.ok.inj heq
    exact hnone
  split at heq
  · rename_i s hs
    split at heq
    · obtain rfl := Except.ok.inj heq
      exact ⟨hnone, record, hrecord, rfl, hs⟩
    · exact absurd heq (by simp)
  · rename_i hgone
    obtain rfl := Except.ok.inj heq
    exact ⟨hnone, record, hrecord, rfl, rfl, rfl, hgone⟩

/-- A classification that was answered is what the store shows, and leaves it alone. -/
theorem resolve_of_exec {d : Deployment} {x : Choice} {c : ℕ} {w w' : World} {h : String}
    {resolution : RefreshResolution}
    (hex : exec d x c (.resolveRefreshToken h) w = some (.ok resolution, w')) :
    w.ShowsAs h resolution ∧ w' = w := by
  obtain hdone | ⟨⟨e, he⟩, -⟩ := fallible_eq_some hex
  · obtain ⟨heq, rfl⟩ := Prod.mk.inj hdone
    exact ⟨World.showsAs_of_resolve heq, rfl⟩
  · exact absurd he (by simp)

/-! ## What a revocation leaves behind -/

/-- A session revocation that is answered erases the row. -/
theorem revokeSession_erases {d : Deployment} {x : Choice} {c : ℕ} {w w' : World} {h : String}
    (hex : exec d x c (.revokeSession h) w = some (.ok (), w')) :
    w'.sessions = w.sessions.erase h := by
  obtain hdone | ⟨⟨e, he⟩, -⟩ := fallible_eq_some hex
  · unfold World.revokeSession at hdone
    split at hdone
    · exact absurd (congrArg Prod.fst hdone) (by simp)
    · obtain ⟨-, rfl⟩ := Prod.mk.inj hdone
      rfl
  · exact absurd he (by simp)

/-- A family revocation that is answered with a count leaves no live generation of the
family and no record of it. -/
theorem revokeFamily_leaves {d : Deployment} {x : Choice} {c : ℕ} {w w' : World}
    {familyId : String} {count : ℕ}
    (h : exec d x c (.revokeFamily familyId) w = some (.ok count, w')) :
    (∀ h s, w'.sessions.lookup h = some s → s.familyId ≠ familyId) ∧
      ∀ h r, w'.retired.lookup h = some r → r.familyId ≠ familyId := by
  obtain hdone | ⟨⟨e, he⟩, -⟩ := fallible_eq_some h
  · unfold World.revokeFamily at hdone
    split at hdone
    · exact absurd (congrArg Prod.fst hdone) (by simp)
    · obtain ⟨-, rfl⟩ := Prod.mk.inj hdone
      constructor
      · intro h s hs
        have := (Table.lookup_deleteWhere_eq_some.mp hs).2
        simpa using this
      · intro h r hr
        have := (Table.lookup_deleteWhere_eq_some.mp hr).2
        simpa using this
  · exact absurd he (by simp)

/-- A revocation of a user's sessions that is answered with a count leaves none of
them. -/
theorem revokeAllUserSessions_leaves {d : Deployment} {x : Choice} {c : ℕ} {w w' : World}
    {userId : String} {count : ℕ}
    (h : exec d x c (.revokeAllUserSessions userId) w = some (.ok count, w')) :
    ∀ h s, w'.sessions.lookup h = some s → s.userId ≠ userId := by
  obtain hdone | ⟨⟨e, he⟩, -⟩ := fallible_eq_some h
  · obtain ⟨-, rfl⟩ := Prod.mk.inj hdone
    intro h s hs
    have := (Table.lookup_deleteWhere_eq_some.mp hs).2
    simpa using this
  · exact absurd he (by simp)

end OidcExchange
