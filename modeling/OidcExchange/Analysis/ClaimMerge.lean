import OidcExchange.Analysis.UserAdminFlow
import OidcExchange.Analysis.UserLifecycle
import OidcExchange.Program.UserAdmin

/-!
# Whether a merge of claims is lost

A merge is made in memory from the claims that the call read first and is written as the
whole map. The version of the row protects the record that the update reads later, not the
one the merge was made from. In a run where every write meets the row at the version of the
first read, each key holds what the last merge with that key supplied.
-/

set_option autoImplicit false

namespace OidcExchange

open Storage Interleaving Service Past

/-! ## What a merge has done when it acts -/

/-- The user as the call first read it. -/
def MergedFrom (past : Past) (userId : String) (current : User) : Prop :=
  first past = some ⟨.getUserById userId, .ok (some current)⟩

/-- The call has written the user. -/
def WroteUser (past : Past) (userId : String) : Prop :=
  ∃ version user, ⟨.writeUser userId version user, .ok true⟩ ∈ past

/-- What the past of a merge contains when it performs an operation. -/
def MergeReady (userId : String) (request : MergeRequest) (past : Past) : Op → Prop
  | .writeUser u _ user => u = userId ∧ ∃ current, MergedFrom past userId current ∧
      user.claims = mergedClaims current.claims request.claims
  | o => o.Quiet

/-- What the past of a merge contains when it has returned. -/
def MergeOutcome (userId : String) (past : Past) (result : Except (Fault Error) Unit) : Prop :=
  result = .ok () → WroteUser past userId

variable (d : Deployment) {userId : String} {request : MergeRequest} {past : Past}

theorem mergeReady_of_quiet (request : MergeRequest) (past : Past) (o : Op) (h : o.Quiet) :
    MergeReady userId request past o := by
  cases o <;> first | exact h | exact absurd h (by simp [Op.Quiet])

/-- One cycle of the update: a cycle that yields a user has written it. -/
theorem mergeAttempt_obeys {current : User} (hfrom : MergedFrom past userId current) :
    (updateAttempt userId (claimsPatch (mergedClaims current.claims request.claims))).Obeys
      (MergeReady userId request)
      (fun past' result => MergedFrom past' userId current ∧
        ∀ user, result = .ok (some user) → WroteUser past' userId) past := by
  have hready := @mergeReady_of_quiet userId request
  refine ⟨hready _ _ trivial, ?_⟩
  rintro (e | (_ | read))
  · exact ⟨first_cons hfrom _, nofun⟩
  · exact ⟨first_cons hfrom _, nofun⟩
  · refine ⟨hready _ _ trivial, fun now => ?_⟩
    have hfrom' := first_cons (first_cons hfrom ⟨.getUserById userId, .ok (some read)⟩) ⟨.now, now⟩
    refine ⟨⟨rfl, current, hfrom', rfl⟩, ?_⟩
    rintro (e | (_ | _))
    · exact ⟨first_cons hfrom' _, nofun⟩
    · exact ⟨first_cons hfrom' _, nofun⟩
    · exact ⟨first_cons hfrom' _, fun _ _ => ⟨_, _, List.mem_cons_self⟩⟩

/-- The update writes, or it fails: by induction on the budget. -/
theorem mergeUpdate_obeys {current : User} (budget : ℕ) (hfrom : MergedFrom past userId current) :
    (retryOnVersionConflict userId
      (updateAttempt userId (claimsPatch (mergedClaims current.claims request.claims)))
      budget).Obeys (MergeReady userId request)
      (fun past' result => ∀ user, result = .ok user → WroteUser past' userId) past := by
  induction budget generalizing past with
  | zero => exact nofun
  | succ budget ih =>
    refine (mergeAttempt_obeys hfrom).bind ?_ (fun _ _ _ => nofun)
    rintro past' (_ | user) ⟨hfrom', hwrote⟩
    · exact ih hfrom'
    · exact fun _ _ => hwrote user rfl

theorem emitClaimsAuditEvent_only (operator : OperatorPrincipal) (user : User)
    (operation : String) : (emitClaimsAuditEvent d operator user operation).Only Op.Quiet := by
  refine Program.Only.bind ?_ fun event => emitMandatoryAuditEvent_only d _
  exact (assert_only _).bind fun _ => (assert_only _).bind fun _ => trivial

/-- A program that checks the claims performs nothing. -/
theorem ensureNoReservedClaims_obeys {ready : Past → Op → Prop} (claims : Table String Value) :
    (ensureNoReservedClaims claims).Obeys ready (fun past' _ => past' = past) past := by
  unfold ensureNoReservedClaims
  split <;> rfl

/-- Every merge complies. -/
theorem adminMergeClaims_obeys (request : MergeRequest) :
    (adminMergeClaims d request.operator userId request.claims).Obeys
      (MergeReady userId request) (MergeOutcome userId) [] := by
  have hready := @mergeReady_of_quiet userId request
  refine (ensureNoReservedClaims_obeys request.claims).bind ?_ (fun _ _ _ => nofun)
  rintro _ _ rfl
  refine ⟨hready _ _ trivial, ?_⟩
  rintro (e | (_ | current))
  · exact nofun
  · exact nofun
  · have hfrom : MergedFrom [⟨.getUserById userId, .ok (some current)⟩] userId current := rfl
    refine (mergeUpdate_obeys updateMaxAttempts hfrom).bind ?_ (fun _ _ _ => nofun)
    intro past₁ user hwrote
    refine ((emitClaimsAuditEvent_only d _ _ _).obeys hready).mono ?_
    intro past₂ _ hsince _
    obtain ⟨version, written, hmem⟩ := hwrote user rfl
    exact ⟨version, written, hsince.mem hmem⟩

/-! ## The claims of the user -/

/-- Every write of the user meets the row at the version of the call's first read, the one
its claims were merged from. -/
def AtFirstRead (userId : String) (m : MergeMoment) (c : ℕ) (x : Choice) (o : Op) : Prop :=
  ∀ version user row current, o = .writeUser userId version user → x = .proceed →
    m.world.users.lookup userId = some row → row.version = version →
    MergedFrom (m.past c) userId current → current.version = row.version

/-- Some call with the key has written the user, and the row holds what it supplied. -/
def Supplied (userId : String) (m : MergeMoment) (row : User) (key : String) : Prop :=
  ∃ c request value, .began c request ∈ m.history ∧ WroteUser (m.past c) userId ∧
    request.claims.lookup key = some value ∧ row.claims.lookup key = some value

/-- No call with the key has written the user, and the row holds what it held at first. -/
def Untouched (userId : String) (original : User) (m : MergeMoment) (row : User)
    (key : String) : Prop :=
  row.claims.lookup key = original.claims.lookup key ∧
    ∀ c request, .began c request ∈ m.history → WroteUser (m.past c) userId →
      request.claims.lookup key = none

/-- The row of the user: what was read of it is older or exact, and every key holds what
some merge supplied, or what it held at first. -/
structure MergeLedger (userId : String) (original : User) (m : MergeMoment) (row : User) :
    Prop where
  stored : m.world.users.lookup userId = some row
  read : ∀ c user, .performed c (.getUserById userId) (.ok (some user)) ∈ m.history →
    user.version ≤ row.version ∧ (user.version = row.version → user.claims = row.claims)
  key : ∀ key, Supplied userId m row key ∨ Untouched userId original m row key

variable {d} {original row : User} {m : MergeMoment} {c : ℕ} {x : Choice} {o : Op} {ans : Ans o}
  {w : World}

/-- An operation that writes no user leaves the calls that have written as they are. -/
theorem wroteUser_performed (hnot : writtenOf o ans = none) (c' : ℕ) :
    WroteUser ((m.performed c o ans w).past c') userId ↔ WroteUser (m.past c') userId := by
  by_cases hc : c = c'
  · subst hc
    rw [Moment.past_performed_self]
    constructor
    · rintro ⟨version, user, hmem⟩
      obtain heq | hmem := List.mem_cons.mp hmem
      · cases heq
        exact absurd hnot (by simp [writtenOf])
      · exact ⟨version, user, hmem⟩
    · rintro ⟨version, user, hmem⟩
      exact ⟨version, user, List.mem_cons_of_mem _ hmem⟩
  · rw [Moment.past_performed_other _ hc]

/-- What holds of the keys holds on after an operation that writes no user. -/
theorem MergeLedger.key_kept (h : MergeLedger userId original m row)
    (hnot : writtenOf o ans = none) (key : String) :
    Supplied userId (m.performed c o ans w) row key ∨
      Untouched userId original (m.performed c o ans w) row key := by
  obtain ⟨c', request, value, hbegan, hwrote, hkey, hrow⟩ | ⟨hrow, hothers⟩ := h.key key
  · exact Or.inl ⟨c', request, value, by simpa using hbegan,
      (wroteUser_performed hnot c').mpr hwrote, hkey, hrow⟩
  · refine Or.inr ⟨hrow, fun c' request hbegan hwrote => ?_⟩
    exact hothers c' request (by simpa using hbegan) ((wroteUser_performed hnot c').mp hwrote)

/-- An operation that leaves the row alone. -/
theorem MergeLedger.kept (h : MergeLedger userId original m row)
    (hnot : writtenOf o ans = none) (hsame : w.users.lookup userId = some row)
    (hex : exec d x c o m.world = some (ans, w)) :
    MergeLedger userId original (m.performed c o ans w) row where
  stored := hsame
  read c' user hmem := by
    obtain heq | hmem := List.mem_cons.mp hmem
    · cases heq
      have hread := stored_of_getUserById hex
      obtain rfl := Option.some.inj (h.stored.symm.trans hread)
      exact ⟨Nat.le_refl _, fun _ => rfl⟩
    · exact h.read c' user hmem
  key := h.key_kept hnot

/-- A write at the version that the claims were merged from. -/
theorem MergeLedger.wrote (h : MergeLedger userId original m row)
    (hrunning : m.Running c request) {current written : User} {version : ℕ}
    (hfrom : MergedFrom (m.past c) userId current) (hversion : current.version = row.version)
    (hclaims : written.claims = mergedClaims current.claims request.claims)
    (hw : w.users.lookup userId = some (row.overwritten written)) :
    MergeLedger userId original (m.performed c (.writeUser userId version written) (.ok true) w)
      (row.overwritten written) where
  stored := hw
  read c' user hmem := by
    obtain heq | hmem := List.mem_cons.mp hmem
    · cases heq
    · obtain ⟨hle, -⟩ := h.read c' user hmem
      rw [version_overwritten]
      exact ⟨by omega, fun heq => by omega⟩
  key key := by
    have hexact : current.claims = row.claims :=
      (h.read c current ((Moment.mem_past ..).mp (mem_of_first hfrom))).2 hversion
    have hlookup : (row.overwritten written).claims.lookup key =
        (request.claims.lookup key).or (row.claims.lookup key) := by
      change written.claims.lookup key = _
      rw [hclaims, hexact, mergedClaims, Table.lookup_merge]
      cases request.claims.lookup key <;> rfl
    have hbegan := (hrunning.asked request).mpr rfl
    cases hkey : request.claims.lookup key with
    | some value =>
      rw [hkey] at hlookup
      refine Or.inl ⟨c, request, value, by simpa using hbegan, ?_, hkey, hlookup⟩
      exact ⟨version, written, by simp⟩
    | none =>
      -- a key of another call: the row holds what it held
      rw [hkey, Option.none_or] at hlookup
      obtain ⟨c', request', value, hbegan', hwrote, hkey', hrow⟩ | ⟨hrow, hothers⟩ := h.key key
      · refine Or.inl ⟨c', request', value, by simpa using hbegan', ?_, hkey', hlookup.trans hrow⟩
        obtain ⟨version', user, hmem⟩ := hwrote
        exact ⟨version', user, (Moment.mem_past ..).mpr
          (List.mem_cons_of_mem _ ((Moment.mem_past ..).mp hmem))⟩
      · refine Or.inr ⟨hlookup.trans hrow, fun c' request' hbegan' hwrote => ?_⟩
        by_cases hc : c = c'
        · subst hc
          obtain rfl := (hrunning.asked request').mp (by simpa using hbegan')
          exact hkey
        · rw [Moment.past_performed_other _ hc] at hwrote
          exact hothers c' request' (by simpa using hbegan') hwrote

/-- A write that took place was let through. -/
theorem proceed_of_written {id : String} {version : ℕ} {user : User} {w' : World}
    (hex : exec d x c (.writeUser id version user) w = some (.ok true, w')) : x = .proceed := by
  cases x with
  | proceed => rfl
  | fail e => exact absurd (Prod.mk.inj (Option.some.inj hex)).1 (by simp)
  | _ => exact absurd hex (by simp [exec, fallible])

/-- Every operation of a run whose writes meet the first read keeps the ledger. -/
theorem MergeLedger.performs (h : MergeLedger userId original m row)
    (hrunning : m.Running c request) (hready : MergeReady userId request (m.past c) o)
    (hfirst : AtFirstRead userId m c x o) (hex : exec d x c o m.world = some (ans, w)) :
    ∃ row', MergeLedger userId original (m.performed c o ans w) row' := by
  cases userStep_of_exec hex with
  | created new fresh hfresh _ _ =>
    refine ⟨row, h.kept rfl ?_ hex⟩
    show (m.world.users.insert fresh.id fresh).lookup userId = some row
    rw [Table.lookup_insert_ite, if_neg, h.stored]
    rintro rfl
    have hstored := h.stored
    rw [hfresh] at hstored
    exact absurd hstored (by simp)
  | wrote id written stored hstored =>
    obtain ⟨rfl, current, hfrom, hclaims⟩ := hready
    obtain rfl := Option.some.inj (h.stored.symm.trans hstored)
    refine ⟨row.overwritten written, h.wrote hrunning hfrom ?_ hclaims ?_⟩
    · exact hfirst _ _ row current rfl (proceed_of_written hex) h.stored rfl hfrom
    · show (m.world.users.insert id (row.overwritten written)).lookup id = _
      rw [Table.lookup_insert_ite, if_pos rfl]
  | kept _ hnot hsame => exact ⟨row, h.kept hnot (hsame ▸ h.stored) hex⟩

/-! ## Runs -/

/-- The ledger, kept by every step whose write meets the first read. -/
def mergeProtocol (d : Deployment) (userId : String) (original : User) :
    Protocol (portSemantics d) (MergeReady userId) where
  inv m := ∃ row, MergeLedger userId original m row
  allowed := AtFirstRead userId
  begins := fun {m c i} ⟨row, h⟩ hunseen => by
    have hpast : ∀ c', WroteUser ((m.begin c i).past c') userId ↔ WroteUser (m.past c') userId := by
      intro c'
      rw [Moment.past_begin]
    refine ⟨row, h.stored, fun c' user hmem => h.read c' user (by simpa using hmem), ?_⟩
    intro key
    obtain ⟨c', request, value, hbegan, hwrote, hkey, hrow⟩ | ⟨hrow, hothers⟩ := h.key key
    · exact Or.inl ⟨c', request, value, List.mem_cons_of_mem _ hbegan, (hpast c').mpr hwrote,
        hkey, hrow⟩
    · refine Or.inr ⟨hrow, fun c' request hbegan hwrote => ?_⟩
      obtain heq | hbegan := List.mem_cons.mp hbegan
      · cases heq
        -- a call that begins has written nothing
        obtain ⟨version, user, hmem⟩ := (hpast _).mp hwrote
        rw [hunseen.past] at hmem
        exact absurd hmem List.not_mem_nil
      · exact hothers c' request hbegan ((hpast c').mp hwrote)
  performs := fun ⟨_, h⟩ hrunning hready hallowed hex =>
    h.performs hrunning hready hallowed hex
  ends := fun {m c i} ⟨row, h⟩ _ => by
    refine ⟨row, h.stored, fun c' user hmem => h.read c' user (by simpa using hmem), ?_⟩
    intro key
    obtain ⟨c', request, value, hbegan, hwrote, hkey, hrow⟩ | ⟨hrow, hothers⟩ := h.key key
    · exact Or.inl ⟨c', request, value, List.mem_cons_of_mem _ hbegan, hwrote, hkey, hrow⟩
    · exact Or.inr ⟨hrow, fun c' request hbegan => hothers c' request (by simpa using hbegan)⟩
  drifts := fun {m k w} ⟨row, h⟩ hdrift => by
    have hsame := (shrinks_of_drift hdrift).2
    refine ⟨row, ?_, h.read, h.key⟩
    rw [Moment.drifted_world, hsame]
    exact h.stored

/-- Two merges with a key in common are the same call. -/
def DisjointKeys (m : MergeMoment) : Prop :=
  ∀ c c' request request' key, .began c request ∈ m.history → .began c' request' ∈ m.history →
    c ≠ c' → request.claims.lookup key ≠ none → request'.claims.lookup key = none

/-- Every merge has returned. -/
def AllReturned (p : MergePool) : Prop :=
  ∀ c request, .began c request ∈ p.history → p.Returned c request ()

/-- The user holds every key of every merge as it was supplied, and every other key as at
first. -/
def MergesKept (original : User) (p : MergePool) (userId : String) : Prop :=
  ∃ user, p.world.users.lookup userId = some user ∧
    (∀ c request key value, .began c request ∈ p.history →
      request.claims.lookup key = some value → user.claims.lookup key = some value) ∧
    ∀ key, (∀ c request, .began c request ∈ p.history → request.claims.lookup key = none) →
      user.claims.lookup key = original.claims.lookup key

/-- In every run whose writes meet the row at the version of the call's first read, no merge
is lost. -/
theorem merges_kept {d : Deployment} {userId : String} {original : User} {w : World}
    {p : MergePool} {as : List (Act MergeRequest Choice Drift)}
    (hstored : w.users.lookup userId = some original)
    (hrun : (mergeService d userId).Run (Pool.Under (AtFirstRead userId)) (Pool.initial w) as p)
    (hdisjoint : DisjointKeys p.toMoment) (hreturned : AllReturned p) :
    MergesKept original p userId := by
  have hstart : (mergeProtocol d userId original).inv
      (Pool.initial w : MergePool).toMoment := by
    refine ⟨original, hstored, by simp [Pool.initial], fun key => Or.inr ⟨rfl, ?_⟩⟩
    simp [Pool.initial]
  have hcompliant : Disciplined (MergeReady userId) (fun _ => MergeOutcome userId) p :=
    (Disciplined.initial w).run (adminMergeClaims_obeys d) hrun
  obtain ⟨row, h⟩ := (mergeProtocol d userId original).run (adminMergeClaims_obeys d) hrun
    (Disciplined.initial w) hstart
  refine ⟨row, h.stored, ?_, ?_⟩
  · intro c request key value hbegan hkey
    have hwrote := hcompliant.returned (hreturned c request hbegan) rfl
    obtain ⟨c', request', value', hbegan', -, hkey', hrow⟩ | ⟨-, hothers⟩ := h.key key
    · have hc : c' = c := by
        by_contra hne
        have hnone := hdisjoint c' c request' request key hbegan' hbegan hne (by simp [hkey'])
        rw [hkey] at hnone
        exact absurd hnone (by simp)
      subst hc
      have hasked := hcompliant.asked c' _ (hreturned c' request hbegan)
      obtain rfl := (hasked request').mp hbegan'
      rw [hkey] at hkey'
      rwa [Option.some.inj hkey']
    · rw [hothers c request hbegan hwrote] at hkey
      exact absurd hkey (by simp)
  · intro key hnobody
    obtain ⟨c', request', value', hbegan', -, hkey', -⟩ | ⟨hrow, -⟩ := h.key key
    · rw [hnobody c' request' hbegan'] at hkey'
      exact absurd hkey' (by simp)
    · exact hrow

/-! ## Two merges at once -/

namespace Sample

/-- A user without claims. -/
def unclaimed : User where
  id := theUser
  externalId := "alice"
  provider := "idp"
  email := none
  displayName := none
  metadata := ∅
  claims := ∅
  status := .active
  version := 1
  createdAt := 0
  updatedAt := 0

/-- A store with that user. -/
def oneUser : World := { World.empty 0 with users := (∅ : Table String User).insert theUser unclaimed }

/-- The key that call `c` merges. -/
def mergedKey (c : ℕ) : String := if c = 0 then "team" else "plan"

/-- The merge that call `c` is asked for. -/
def mergeOf (c : ℕ) : MergeRequest where
  operator := operator
  claims := (∅ : Table String Value).insert (mergedKey c) (.bool true)

/-- One of the two calls takes its next step. -/
def goOn (c : ℕ) : Act MergeRequest Choice Drift := .advance c .proceed

/-- One merge after the other. -/
def mergeInTurn : List (Act MergeRequest Choice Drift) :=
  [.begin 0 (mergeOf 0), goOn 0, goOn 0, goOn 0, goOn 0, goOn 0,
    .begin 1 (mergeOf 1), goOn 1, goOn 1, goOn 1, goOn 1, goOn 1]

/-- Both merges read the user before either writes it. -/
def mergeAtOnce : List (Act MergeRequest Choice Drift) :=
  [.begin 0 (mergeOf 0), goOn 0, .begin 1 (mergeOf 1), goOn 1,
    goOn 0, goOn 0, goOn 0, goOn 0, goOn 1, goOn 1, goOn 1, goOn 1]

/-- The two calls have been asked for their merges and have returned. -/
def bothReturned (p : MergePool) : Bool :=
  p.history.all fun e => match e with
    | .began c request => c < 2 && request.claims.keys == [mergedKey c] &&
        (p.calls c).any fun call => match call.rest with
          | .done _ => true
          | _ => false
    | _ => true

/-- The claim is missing. -/
def lacks (key : String) (p : MergePool) : Bool :=
  (p.world.users.lookup theUser).any fun user => (user.claims.lookup key).isNone

/-- A call that is about to write finds the version it first read. -/
def writesFirst (p : MergePool) : Act MergeRequest Choice Drift → Bool
  | .advance c _ =>
    match p.calls c with
    | some ⟨_, .perform (.writeUser _ _ _) _⟩ =>
      match first (p.toMoment.past c) with
      | some ⟨.getUserById _, .ok (some current)⟩ =>
        (p.world.users.lookup theUser).any fun row => row.version == current.version
      | _ => true
    | _ => true
  | _ => true

theorem atFirstRead_of_test {p : MergePool} {a : Act MergeRequest Choice Drift}
    (htest : writesFirst p a = true) : p.Under (AtFirstRead theUser) a := by
  rintro c x o ⟨rfl, i, next, hc⟩ version user row current rfl rfl hrow hversion hfrom
  have hfrom : first (p.toMoment.past c) = some ⟨.getUserById theUser, .ok (some current)⟩ := hfrom
  simp only [writesFirst, hc, hfrom, hrow, Option.any_some, beq_iff_eq] at htest
  exact htest.symm

theorem disjointKeys_of_test {p : MergePool} (htest : bothReturned p = true) :
    DisjointKeys p.toMoment := by
  have hkeys : ∀ c request, .began c request ∈ p.history →
      c < 2 ∧ request.claims.keys = [mergedKey c] := by
    intro c request hbegan
    have hone := List.all_eq_true.mp htest _ hbegan
    simp only [Bool.and_eq_true, decide_eq_true_eq, beq_iff_eq] at hone
    exact hone.1
  intro c c' request request' key hbegan hbegan' hne hkey
  obtain ⟨hc, hrequest⟩ := hkeys c request hbegan
  obtain ⟨hc', hrequest'⟩ := hkeys c' request' hbegan'
  have hmem : key ∈ request.claims := AList.lookup_isSome.mp (Option.isSome_iff_ne_none.mpr hkey)
  rw [AList.mem_keys, hrequest, List.mem_singleton] at hmem
  rw [AList.lookup_eq_none, AList.mem_keys, hrequest', List.mem_singleton, hmem]
  unfold mergedKey
  split <;> split <;> first | omega | decide

theorem allReturned_of_test {d : Deployment} {meets : MergePool → Act MergeRequest Choice Drift → Prop}
    {as : List (Act MergeRequest Choice Drift)} {p : MergePool}
    (hrun : (mergeService d theUser).Run meets (Pool.initial oneUser) as p)
    (htest : bothReturned p = true) : AllReturned p := by
  have hcompliant : Disciplined (MergeReady theUser) (fun _ => MergeOutcome theUser) p :=
    (Disciplined.initial oneUser).run (adminMergeClaims_obeys d) hrun
  intro c request hbegan
  have hone := List.all_eq_true.mp htest _ hbegan
  simp only [Bool.and_eq_true] at hone
  obtain ⟨⟨i, rest⟩, hc, hdone⟩ := (Option.any_eq_true _ _).mp hone.2
  obtain rfl := (hcompliant.asked c _ hc request).mp hbegan
  cases rest with
  | done a => exact hc
  | raise e => exact absurd hdone (by simp)
  | perform o next => exact absurd hdone (by simp)

end Sample

/-- One merge after the other keeps both. -/
theorem merges_kept_in_turn : ∃ p,
    (mergeService (Sample.deployment true) Sample.theUser).Run
      (Pool.Under (AtFirstRead Sample.theUser)) (Pool.initial Sample.oneUser) Sample.mergeInTurn p ∧
    MergesKept Sample.unclaimed p Sample.theUser := by
  have hrun : ((mergeService (Sample.deployment true) Sample.theUser).followWhen Sample.writesFirst
      (Pool.initial Sample.oneUser) Sample.mergeInTurn).any Sample.bothReturned = true := by
    decide +kernel
  obtain ⟨p, hrun, htest⟩ :=
    System.Run.of_followWhen_any (fun _ _ h => Sample.atFirstRead_of_test h) hrun
  exact ⟨p, hrun, merges_kept rfl hrun (Sample.disjointKeys_of_test htest)
    (Sample.allReturned_of_test hrun htest)⟩

/-- Two merges that both read first: the second write takes the first merge away. -/
theorem merge_lost : ∃ p,
    (mergeService (Sample.deployment true) Sample.theUser).Run System.anyStep
      (Pool.initial Sample.oneUser) Sample.mergeAtOnce p ∧
    DisjointKeys p.toMoment ∧ AllReturned p ∧
    ¬ MergesKept Sample.unclaimed p Sample.theUser := by
  have hrun : ((mergeService (Sample.deployment true) Sample.theUser).follow
      (Pool.initial Sample.oneUser) Sample.mergeAtOnce).any (fun p =>
        Sample.bothReturned p && Sample.lacks (Sample.mergedKey 0) p &&
          p.history.any fun e => match e with
            | .began c _ => c == 0
            | _ => false) = true := by
    decide +kernel
  obtain ⟨p, hrun, htest⟩ := System.Run.of_follow_any hrun
  simp only [Bool.and_eq_true] at htest
  obtain ⟨⟨hboth, hlacks⟩, hbegan⟩ := htest
  refine ⟨p, hrun, Sample.disjointKeys_of_test hboth, Sample.allReturned_of_test hrun hboth, ?_⟩
  rintro ⟨user, hstored, hkept, -⟩
  obtain ⟨e, hmem, hfirst⟩ := List.any_eq_true.mp hbegan
  cases e with
  | began c request =>
    obtain rfl : c = 0 := by simpa using hfirst
    have hone := List.all_eq_true.mp hboth _ hmem
    simp only [Bool.and_eq_true, beq_iff_eq] at hone
    have hkey : Sample.mergedKey 0 ∈ request.claims := by
      rw [AList.mem_keys, hone.1.2]
      exact List.mem_singleton_self _
    obtain ⟨value, hvalue⟩ := Option.isSome_iff_exists.mp (AList.lookup_isSome.mpr hkey)
    have huser := hkept 0 request _ value hmem hvalue
    simp [Sample.lacks, hstored, huser] at hlacks
  | performed c o ans => exact absurd hfirst (by simp)
  | ended c => exact absurd hfirst (by simp)

end OidcExchange
