import OidcExchange.Analysis.Lineage

/-!
# Accounts

Users are stored under their own identifier, which is not empty; so is every user that a
call has found or created, and every session belongs to such a user.
-/

set_option autoImplicit false

namespace OidcExchange

open Storage Interleaving

/-- No user without an identifier is stored, was found, or owns a session. -/
structure Accounts (m : ServiceMoment) : Prop where
  stored : ∀ id user, m.world.users.lookup id = some user → user.id = id ∧ id ≠ ""
  found : ∀ c externalId provider user,
    .performed c (.getUserByExternalId externalId provider) (.ok (some user)) ∈ m.history →
      user.id ≠ ""
  created : ∀ c new user, .performed c (.createUser new) (.ok user) ∈ m.history → user.id ≠ ""
  owned : ∀ c s, (c, s) ∈ installs m → s.userId ≠ ""

variable {d : Deployment} {m : ServiceMoment}

/-- A user that a lookup by external identity answers is stored. -/
theorem stored_of_getUserByExternalId {x : Choice} {c : ℕ} {w w' : World}
    {externalId provider : String} {user : User}
    (hex : exec d x c (.getUserByExternalId externalId provider) w =
      some (.ok (some user), w')) : ∃ id, w.users.lookup id = some user := by
  obtain hdone | ⟨⟨e, he⟩, -⟩ := fallible_eq_some hex
  · have hfound : w.getUserByExternalId externalId provider = some user := by
      simpa using congrArg Prod.fst hdone
    exact (Table.findValue?_eq_some hfound).1
  · exact absurd he (by simp)

/-- A user that a lookup by identifier answers is stored under it. -/
theorem stored_of_getUserById {x : Choice} {c : ℕ} {w w' : World} {userId : String}
    {user : Option User} (hex : exec d x c (.getUserById userId) w = some (.ok user, w')) :
    w.users.lookup userId = user := by
  obtain hdone | ⟨⟨e, he⟩, -⟩ := fallible_eq_some hex
  · simpa using congrArg Prod.fst hdone
  · exact absurd he (by simp)

namespace Accounts

/-- A user that is stored with an update keeps its identifier. -/
theorem stored_of_userStep (ha : Accounts m) {o : Op} {ans : Ans o} {w : World}
    (h : UserStep m.world o ans w) :
    ∀ id user, w.users.lookup id = some user → user.id = id ∧ id ≠ "" := by
  intro id user hlookup
  cases h with
  | created new fresh _ hnamed _ =>
    change (m.world.users.insert fresh.id fresh).lookup id = some user at hlookup
    rw [Table.lookup_insert_ite] at hlookup
    split at hlookup
    · rename_i heq
      obtain rfl := Option.some.inj hlookup
      exact ⟨heq.symm, heq ▸ hnamed⟩
    · exact ha.stored id user hlookup
  | wrote userId written stored hstored =>
    change (m.world.users.insert userId (stored.overwritten written)).lookup id = some user
      at hlookup
    rw [Table.lookup_insert_ite] at hlookup
    split at hlookup
    · rename_i heq
      obtain rfl := Option.some.inj hlookup
      subst heq
      exact ha.stored id stored hstored
    · exact ha.stored id user hlookup
  | kept _ _ hsame => exact ha.stored id user (hsame ▸ hlookup)

/-- Every operation of a compliant call keeps the accounts. -/
theorem performs (hl : Lineage d m) (htruth : Truthful m) (ha : Accounts m) {request : Request}
    {c : ℕ} {x : Choice} {o : Op} {ans : Ans o} {w : World}
    (hready : Ready d request (m.past c) o) (hex : exec d x c o m.world = some (ans, w)) :
    Accounts (m.performed c o ans w) where
  stored := ha.stored_of_userStep (userStep_of_exec hex)
  found := by
    intro c' externalId provider user hmem
    rcases List.mem_cons.mp hmem with heq | hmem
    · cases heq
      obtain ⟨id, hid⟩ := stored_of_getUserByExternalId hex
      obtain ⟨rfl, hne⟩ := ha.stored id user hid
      exact hne
    · exact ha.found c' externalId provider user hmem
  created := by
    intro c' new user hmem
    rcases List.mem_cons.mp hmem with heq | hmem
    · cases heq
      cases userStep_of_exec hex with
      | created _ _ _ hnamed _ => exact hnamed
      | kept hnot _ _ => exact absurd hnot (by simp [createdOf])
    · exact ha.created c' new user hmem
  owned := by
    intro c' s hmem
    cases storeStep_of_exec hex with
    | drew raw _ => exact ha.owned c' s hmem
    | drewFamily familyId _ _ => exact ha.owned c' s hmem
    | stored t =>
      have hi : installs (m.performed c (.storeRefreshToken t) (.ok ())
          { m.world with sessions := m.world.sessions.insert t.refreshTokenHash t }) =
          (c, t) :: installs m := Moment.collect_performed_some installOf m _ rfl
      rw [hi] at hmem
      rcases List.mem_cons.mp hmem with heq | hmem
      · obtain ⟨rfl, rfl⟩ := Prod.mk.inj heq
        obtain ⟨req, -, ⟨user, raw, familyId, expiresAt, createdAt, rfl, hadmitted, -⟩, -⟩ :=
          hready
        show user.id ≠ ""
        obtain ⟨externalId, provider, hfound, -⟩ | ⟨new, hcreated⟩ := hadmitted
        · exact ha.found _ _ _ _ ((Moment.mem_past ..).mp hfound)
        · exact ha.created _ _ _ ((Moment.mem_past ..).mp hcreated)
      · exact ha.owned c' s hmem
    | rotated h r live retired hlive _ _ _ =>
      have hi : installs (m.performed c (.rotateRefreshToken h r) (.ok true)
          { m.world with sessions := (m.world.sessions.erase h).insert r.refreshTokenHash r,
                         retired := retired }) = (c, r) :: installs m :=
        Moment.collect_performed_some installOf m _ rfl
      rw [hi] at hmem
      rcases List.mem_cons.mp hmem with heq | hmem
      · obtain ⟨rfl, rfl⟩ := Prod.mk.inj heq
        obtain ⟨hsucc, -⟩ := succeeds_of_rotateReady hl htruth hready hlive
        obtain ⟨c₁, hinstalled⟩ := hl.installed_of_live hlive
        rw [hsucc.same.userId]
        exact ha.owned c₁ live hinstalled
      · exact ha.owned c' s hmem
    | shrank hunseen _ =>
      simp only [installs, Moment.collect_performed_none _ m w hunseen.install] at hmem
      exact ha.owned c' s hmem

end Accounts

/-- The accounts, kept by every step of the service. -/
def accountProtocol (d : Deployment) : Protocol (portSemantics d) (Ready d) where
  inv m := (Lineage d m ∧ Truthful m) ∧ Accounts m
  allowed _ _ _ _ := True
  begins := fun {m c i} h hunseen =>
    ⟨(lineageProtocol d).begins h.1 hunseen, h.2.stored,
      fun c' e p user hmem => h.2.found c' e p user (by simpa using hmem),
      fun c' new user hmem => h.2.created c' new user (by simpa using hmem), h.2.owned⟩
  performs h hrunning hready _ hex :=
    ⟨(lineageProtocol d).performs h.1 hrunning hready trivial hex,
      h.2.performs h.1.1 h.1.2 hready hex⟩
  ends := fun {m c i} h hrunning =>
    ⟨(lineageProtocol d).ends h.1 hrunning, h.2.stored,
      fun c' e p user hmem => h.2.found c' e p user (by simpa using hmem),
      fun c' new user hmem => h.2.created c' new user (by simpa using hmem), h.2.owned⟩
  drifts h hdrift :=
    ⟨(lineageProtocol d).drifts h.1 hdrift,
      (shrinks_of_drift hdrift).2 ▸ h.2.stored, h.2.found, h.2.created, h.2.owned⟩

/-- In every run of the service, the accounts hold at the end. -/
theorem accounts_of_run {meets : ServicePool → ServiceAct → Prop} {clock : Instant}
    {p : ServicePool} {as : List ServiceAct}
    (hrun : (service d).Run meets (ServicePool.start clock) as p) : Accounts p.toMoment := by
  have hstart : Accounts (ServicePool.start clock).toMoment := by
    constructor <;> simp [ServicePool.start, Pool.initial, World.empty, installs, Moment.collect]
  exact ((accountProtocol d).run (serve_obeys d) (hrun.mono fun _ _ _ _ _ _ _ => trivial)
    (Disciplined.initial _) ⟨lineage_start d clock, hstart⟩).2

end OidcExchange
