import Mathlib.Data.List.Chain
import Mathlib.Data.List.Nodup
import OidcExchange.Analysis.ExchangeFlow
import OidcExchange.Analysis.RefreshFlow
import OidcExchange.Analysis.UserAdminFlow
import OidcExchange.Analysis.PortFacts

/-!
# The lineage of session families

The history determines which sessions were ever put into the store, by which call,
and which swaps were won. The lineage invariant ties the store to it: hashes and
families are drawn once and installed by the call that drew them; the generations of a
family form a chain; a live row is the newest generation of its family; a swapped hash
is never live again; and a retirement record belongs to a won swap. Every step keeps
it, with any number of calls and in any order, because a call that installs has not
installed before.
-/

set_option autoImplicit false

namespace OidcExchange

open Storage Interleaving

/-! ## Every call of the service complies

The three flows put together: whatever a request is and whatever its operations are
answered, the call performs only what its past justifies.
-/

section

variable (d : Deployment)

/-- A result passed through a constructor obeys what the result obeys. -/
theorem obeys_map {α : Type} {ready : Past → Op → Prop}
    {post : Past → Except (Fault Error) α → Prop}
    {goal : Past → Except (Fault Error) Response → Prop} {past : Past} {p : Service Error α}
    {f : α → Response} (h : p.Obeys ready post past)
    (hgoal : ∀ past' r, post past' r → goal past' (r.map f)) :
    (f <$> p).Obeys ready goal past :=
  Program.Obeys.bind h (fun past' _ ha => hgoal past' _ ha) (fun past' _ he => hgoal past' _ he)

/-- **Every request complies**: it performs only what its past justifies, and ends with
the past its outcome promises. -/
theorem serve_obeys (request : Request) :
    (serve d request).Obeys (Ready d request) (Outcome d request) [] := by
  cases request with
  | refresh req => exact obeys_map (refresh_obeys d req) fun _ _ h => h
  | exchange req => exact obeys_map (exchange_obeys d req) fun _ _ _ => trivial
  | adminUpdateUser operator userId patch =>
    refine obeys_map (adminUpdateUser_obeys d operator rfl) fun past' r h => ⟨?_⟩
    rintro response hr
    cases r with
    | error e => simp [Except.map] at hr
    | ok user => exact h user rfl
  | adminDeleteUser operator userId =>
    refine obeys_map (adminDeleteUser_obeys d operator rfl) fun past' r h => ⟨?_⟩
    rintro response hr
    cases r with
    | error e => simp [Except.map] at hr
    | ok u => exact h u rfl

/-- A pool of the service in which every call has complied so far. -/
abbrev Compliant (p : ServicePool) : Prop := Disciplined (Ready d) (Outcome d) p

/-- Every run from the start is compliant. -/
theorem compliant_of_run {meets : ServicePool → ServiceAct → Prop} {clock : Instant}
    {p : ServicePool} {as : List ServiceAct}
    (hrun : (service d).Run meets (ServicePool.start clock) as p) : Compliant d p :=
  (Disciplined.initial _).run (serve_obeys d) hrun

end

/-! ## Views of the history -/

section Views

variable (m : ServiceMoment)

/-- The sessions put into the store and the calls that did it, newest first. -/
def installs : List (ℕ × Session) := m.collect installOf

/-- The swaps that were won, newest first. -/
def rotations : List (ℕ × String × Session) := m.collect rotationOf

/-- The tokens drawn, newest first. -/
def draws : List (ℕ × String) := m.collect drawOf

/-- The families drawn, newest first. -/
def familyDraws : List (ℕ × String) := m.collect familyDrawOf

/-- The generations ever installed in a family, newest first. -/
def generations (familyId : String) : List Session :=
  ((installs m).map Prod.snd).filter fun s => s.familyId == familyId

end Views

theorem mem_generations {m : ServiceMoment} {familyId : String} {s : Session} :
    s ∈ generations m familyId ↔ (∃ c, (c, s) ∈ installs m) ∧ s.familyId = familyId := by
  simp [generations, List.mem_filter]

/-- The two sessions are generations of one sign-in. -/
structure SameSignIn (s t : Session) : Prop where
  userId : t.userId = s.userId
  familyId : t.familyId = s.familyId
  provider : t.provider = s.provider
  expiresAt : t.expiresAt = s.expiresAt
  deviceId : t.deviceId = s.deviceId
  userAgent : t.userAgent = s.userAgent
  ipAddress : t.ipAddress = s.ipAddress
  location : t.location = s.location
  createdAt : t.createdAt = s.createdAt

theorem SameSignIn.refl (s : Session) : SameSignIn s s :=
  ⟨rfl, rfl, rfl, rfl, rfl, rfl, rfl, rfl, rfl⟩

theorem SameSignIn.trans {s t u : Session} (h₁ : SameSignIn s t) (h₂ : SameSignIn t u) :
    SameSignIn s u :=
  ⟨h₂.1.trans h₁.1, h₂.2.trans h₁.2, h₂.3.trans h₁.3, h₂.4.trans h₁.4, h₂.5.trans h₁.5,
    h₂.6.trans h₁.6, h₂.7.trans h₁.7, h₂.8.trans h₁.8, h₂.9.trans h₁.9⟩

/-- `t` is the next generation after `s`. -/
structure Succeeds (s t : Session) : Prop where
  number : t.generation = s.generation + 1
  same : SameSignIn s t

/-- The store and the history fit together. -/
structure Lineage (d : Deployment) (m : ServiceMoment) : Prop where
  tokens : m.world.tokens = (draws m).map Prod.snd
  families : m.world.familyIds = (familyDraws m).map Prod.snd
  tokens_nodup : ((draws m).map fun e => d.digest e.2).Nodup
  families_nodup : ((familyDraws m).map Prod.snd).Nodup
  hashes_nodup : ((installs m).map fun e => e.2.refreshTokenHash).Nodup
  minted : ∀ c s, (c, s) ∈ installs m →
    ∃ raw, (c, raw) ∈ draws m ∧ s.refreshTokenHash = d.digest raw
  valid : ∀ c s, (c, s) ∈ installs m → isValidFamilyId s.familyId = true
  founded : ∀ c s, (c, s) ∈ installs m →
    ∃ c₀ s₀, (c₀, s.familyId) ∈ familyDraws m ∧ (c₀, s₀) ∈ installs m
  chain : ∀ familyId, (generations m familyId).IsChain fun newer older => Succeeds older newer
  founder : ∀ familyId s, (generations m familyId).getLast? = some s → s.generation = 0
  live : ∀ h s, m.world.sessions.lookup h = some s →
    s.refreshTokenHash = h ∧ (generations m s.familyId).head? = some s
  rotated : ∀ c h r, (c, h, r) ∈ rotations m → m.world.sessions.lookup h = none
  rotated_from : ∀ c h r, (c, h, r) ∈ rotations m → (c, r) ∈ installs m ∧
    ∃ c' s, (c', s) ∈ installs m ∧ s.refreshTokenHash = h ∧ Succeeds s r
  rotations_nodup : ((rotations m).map fun e => e.2.1).Nodup
  retired : ∀ h record, m.world.retired.lookup h = some record →
    ∃ c r, (c, h, r) ∈ rotations m ∧ record.successorHash = r.refreshTokenHash ∧
      record.familyId = r.familyId ∧ record.userId = r.userId ∧
      record.retiredAt ≤ m.world.clock

/-- What a classification was answered is true of the history. -/
def TrueOf (m : ServiceMoment) (h : String) : RefreshResolution → Prop
  | .live s => s.refreshTokenHash = h ∧ ∃ c, (c, s) ∈ installs m
  | .superseded s _ => ∃ c, (c, h, s) ∈ rotations m
  | .retired familyId userId _ =>
    ∃ c r, (c, h, r) ∈ rotations m ∧ r.familyId = familyId ∧ r.userId = userId
  | .unknown => True

/-- Every classification in the history was true. -/
def Truthful (m : ServiceMoment) : Prop :=
  ∀ c h resolution,
    .performed c (.resolveRefreshToken h) (.ok resolution) ∈ m.history → TrueOf m h resolution

variable {d : Deployment} {m : ServiceMoment}

/-! ## Consequences -/

namespace Lineage

/-- A hash belongs to one installed session. -/
theorem install_unique (hl : Lineage d m) {c c' : ℕ} {s s' : Session}
    (hs : (c, s) ∈ installs m) (hs' : (c', s') ∈ installs m)
    (hhash : s.refreshTokenHash = s'.refreshTokenHash) : c = c' ∧ s = s' :=
  Prod.mk.inj (List.inj_on_of_nodup_map hl.hashes_nodup hs hs' hhash)

/-- A token is drawn by one call. -/
theorem draw_unique (hl : Lineage d m) {c c' : ℕ} {raw raw' : String}
    (h : (c, raw) ∈ draws m) (h' : (c', raw') ∈ draws m)
    (hdigest : d.digest raw = d.digest raw') : c = c' ∧ raw = raw' :=
  Prod.mk.inj (List.inj_on_of_nodup_map hl.tokens_nodup h h' hdigest)

/-- A family is drawn by one call. -/
theorem familyDraw_unique (hl : Lineage d m) {c c' : ℕ} {familyId : String}
    (h : (c, familyId) ∈ familyDraws m) (h' : (c', familyId) ∈ familyDraws m) : c = c' :=
  (Prod.mk.inj (List.inj_on_of_nodup_map hl.families_nodup h h' rfl)).1

/-- A hash is swapped once. -/
theorem rotation_unique (hl : Lineage d m) {c c' : ℕ} {h : String} {r r' : Session}
    (hr : (c, h, r) ∈ rotations m) (hr' : (c', h, r') ∈ rotations m) : c = c' ∧ r = r' := by
  have := Prod.mk.inj (List.inj_on_of_nodup_map hl.rotations_nodup hr hr' rfl)
  exact ⟨this.1, (Prod.mk.inj this.2).2⟩

/-- A live row was installed. -/
theorem installed_of_live (hl : Lineage d m) {h : String} {s : Session}
    (hs : m.world.sessions.lookup h = some s) : ∃ c, (c, s) ∈ installs m :=
  (mem_generations.mp (List.mem_of_mem_head? (hl.live h s hs).2)).1

/-- A live hash is the digest of a token that was drawn. -/
theorem drawn_of_live (hl : Lineage d m) {h : String} {s : Session}
    (hs : m.world.sessions.lookup h = some s) : ∃ raw ∈ m.world.tokens, h = d.digest raw := by
  obtain ⟨c, hinstalled⟩ := hl.installed_of_live hs
  obtain ⟨raw, hraw, hhash⟩ := hl.minted c s hinstalled
  refine ⟨raw, ?_, (hl.live h s hs).1.symm.trans hhash⟩
  rw [hl.tokens]
  exact List.mem_map_of_mem hraw

/-- A retired hash is the digest of a token that was drawn. -/
theorem drawn_of_retired (hl : Lineage d m) {h : String} {record : RetiredRefreshToken}
    (hr : m.world.retired.lookup h = some record) : ∃ raw ∈ m.world.tokens, h = d.digest raw := by
  obtain ⟨c, r, hmem, -⟩ := hl.retired h record hr
  obtain ⟨-, c', s, hinstalled, rfl, -⟩ := hl.rotated_from c h r hmem
  obtain ⟨raw, hraw, hhash⟩ := hl.minted c' s hinstalled
  refine ⟨raw, ?_, hhash⟩
  rw [hl.tokens]
  exact List.mem_map_of_mem hraw

/-- The generations of a family share one sign-in. -/
theorem sameSignIn_of_isChain {l : List Session}
    (h : l.IsChain fun newer older => Succeeds older newer) {s : Session}
    (hs : l.getLast? = some s) : ∀ t ∈ l, SameSignIn s t := by
  induction l with
  | nil => simp
  | cons a l ih =>
    intro t ht
    cases l with
    | nil =>
      obtain rfl : a = s := by simpa using hs
      obtain rfl : t = a := by simpa using ht
      exact .refl t
    | cons b rest =>
      have htail := ih (List.isChain_cons_cons.mp h).2 (by simpa using hs)
      rcases List.mem_cons.mp ht with rfl | ht
      · exact (htail b (List.mem_cons_self ..)).trans (List.isChain_cons_cons.mp h).1.same
      · exact htail t ht

/-! ## Preservation -/

variable {m' : ServiceMoment}

/-- The invariant survives when the views stay the same and the store only shrinks. -/
theorem shrink (hl : Lineage d m) (hi : installs m' = installs m) (hr : rotations m' = rotations m)
    (hd : draws m' = draws m) (hf : familyDraws m' = familyDraws m)
    (hw : m.world.Shrinks m'.world) : Lineage d m' := by
  have hg : ∀ familyId, generations m' familyId = generations m familyId := by
    intro familyId
    simp [generations, hi]
  constructor
  · rw [hw.tokens, hd, hl.tokens]
  · rw [hw.familyIds, hf, hl.families]
  · rw [hd]; exact hl.tokens_nodup
  · rw [hf]; exact hl.families_nodup
  · rw [hi]; exact hl.hashes_nodup
  · rw [hi, hd]; exact hl.minted
  · rw [hi]; exact hl.valid
  · rw [hi, hf]; exact hl.founded
  · intro familyId; rw [hg]; exact hl.chain familyId
  · intro familyId; rw [hg]; exact hl.founder familyId
  · intro h s hs; rw [hg]; exact hl.live h s (hw.sessions h s hs)
  · intro c h r hmem
    rw [hr] at hmem
    cases hk : m'.world.sessions.lookup h with
    | none => rfl
    | some s => exact absurd (hw.sessions h s hk) (by simp [hl.rotated c h r hmem])
  · rw [hr, hi]; exact hl.rotated_from
  · rw [hr]; exact hl.rotations_nodup
  · intro h record hrec
    rw [hr]
    obtain ⟨c, r, hmem, hsucc, hfam, huser, hat⟩ := hl.retired h record (hw.retired h record hrec)
    exact ⟨c, r, hmem, hsucc, hfam, huser, Int.le_trans hat hw.clock⟩

/-- A call that has not tried to install anything has installed nothing. -/
theorem not_installed {c : ℕ} (h : Past.NoInstall (m.past c)) (s : Session) :
    (c, s) ∉ installs m := by
  intro hmem
  obtain ⟨o, ans, hperf, hview⟩ := Moment.mem_collect.mp hmem
  have hno := h ⟨o, ans⟩ ((Moment.mem_past m c o ans).mpr hperf)
  cases o <;> simp_all [Op.Installs, installOf]

/-- A hash that the call drew and has not used is installed nowhere. -/
theorem fresh_hash (hl : Lineage d m) {c : ℕ} {raw : String} (halone : Past.NoInstall (m.past c))
    (hraw : (c, raw) ∈ draws m) {c' : ℕ} {s : Session} (hs : (c', s) ∈ installs m) :
    s.refreshTokenHash ≠ d.digest raw := by
  intro heq
  obtain ⟨raw', hraw', hdigest⟩ := hl.minted c' s hs
  obtain ⟨rfl, -⟩ := hl.draw_unique hraw hraw' (heq.symm.trans hdigest)
  exact not_installed halone s hs

/-- A family that the call drew and has not used has no generation. -/
theorem fresh_family (hl : Lineage d m) {c : ℕ} {familyId : String}
    (halone : Past.NoInstall (m.past c)) (hdrawn : (c, familyId) ∈ familyDraws m) :
    generations m familyId = [] := by
  rw [List.eq_nil_iff_forall_not_mem]
  intro s hs
  obtain ⟨⟨c', hinstalled⟩, rfl⟩ := mem_generations.mp hs
  obtain ⟨c₀, s₀, hdrawn₀, hs₀⟩ := hl.founded c' s hinstalled
  obtain rfl := hl.familyDraw_unique hdrawn hdrawn₀
  exact not_installed halone s₀ hs₀

/-- One more installed session is one more generation of its family. -/
theorem generations_of_cons {c : ℕ} {s : Session} (hi : installs m' = (c, s) :: installs m)
    (familyId : String) :
    generations m' familyId =
      if s.familyId = familyId then s :: generations m familyId else generations m familyId := by
  simp only [generations, hi, List.map_cons, List.filter_cons, beq_iff_eq]

/-- A fresh token is drawn. -/
theorem drew (hl : Lineage d m) (c : ℕ) {raw : String}
    (hfresh : d.digest raw ∉ m.world.tokens.map d.digest) :
    Lineage d (m.performed c .randomToken raw
      { m.world with tokens := raw :: m.world.tokens }) := by
  have hd : draws (m.performed c .randomToken raw
      { m.world with tokens := raw :: m.world.tokens }) = (c, raw) :: draws m :=
    Moment.collect_performed_some drawOf m _ rfl
  constructor
  case tokens => rw [hd]; exact congrArg _ hl.tokens
  case tokens_nodup =>
    rw [hd, List.map_cons, List.nodup_cons]
    refine ⟨?_, hl.tokens_nodup⟩
    rw [hl.tokens, List.map_map] at hfresh
    exact hfresh
  case minted =>
    intro c' s hs
    obtain ⟨raw', hraw', hdigest⟩ := hl.minted c' s hs
    exact ⟨raw', hd ▸ List.mem_cons_of_mem _ hraw', hdigest⟩
  case families => exact hl.families
  case families_nodup => exact hl.families_nodup
  case hashes_nodup => exact hl.hashes_nodup
  case valid => exact hl.valid
  case founded => exact hl.founded
  case chain => exact hl.chain
  case founder => exact hl.founder
  case live => exact hl.live
  case rotated => exact hl.rotated
  case rotated_from => exact hl.rotated_from
  case rotations_nodup => exact hl.rotations_nodup
  case retired => exact hl.retired

/-- A fresh family is drawn. -/
theorem drewFamily (hl : Lineage d m) (c : ℕ) {familyId : String}
    (hfresh : familyId ∉ m.world.familyIds) :
    Lineage d (m.performed c .newFamilyId familyId
      { m.world with familyIds := familyId :: m.world.familyIds }) := by
  have hf : familyDraws (m.performed c .newFamilyId familyId
      { m.world with familyIds := familyId :: m.world.familyIds }) =
      (c, familyId) :: familyDraws m :=
    Moment.collect_performed_some familyDrawOf m _ rfl
  constructor
  case families => rw [hf]; exact congrArg _ hl.families
  case families_nodup =>
    rw [hf, List.map_cons, List.nodup_cons]
    exact ⟨hl.families ▸ hfresh, hl.families_nodup⟩
  case founded =>
    intro c' s hs
    obtain ⟨c₀, s₀, hdrawn, hs₀⟩ := hl.founded c' s hs
    exact ⟨c₀, s₀, hf ▸ List.mem_cons_of_mem _ hdrawn, hs₀⟩
  case tokens => exact hl.tokens
  case tokens_nodup => exact hl.tokens_nodup
  case hashes_nodup => exact hl.hashes_nodup
  case minted => exact hl.minted
  case valid => exact hl.valid
  case chain => exact hl.chain
  case founder => exact hl.founder
  case live => exact hl.live
  case rotated => exact hl.rotated
  case rotated_from => exact hl.rotated_from
  case rotations_nodup => exact hl.rotations_nodup
  case retired => exact hl.retired

/-- A first generation is stored, under a hash and in a family that are fresh. -/
theorem stored (hl : Lineage d m) {c : ℕ} {s : Session} {raw : String}
    (hraw : (c, raw) ∈ draws m) (hhash : s.refreshTokenHash = d.digest raw)
    (hfamily : (c, s.familyId) ∈ familyDraws m) (hvalid : isValidFamilyId s.familyId = true)
    (hfirst : s.generation = 0) (halone : Past.NoInstall (m.past c)) :
    Lineage d (m.performed c (.storeRefreshToken s) (.ok ())
      { m.world with sessions := m.world.sessions.insert s.refreshTokenHash s }) := by
  have hnone := hl.fresh_family halone hfamily
  have hfresh : ∀ {c' : ℕ} {t : Session}, (c', t) ∈ installs m →
      t.refreshTokenHash ≠ s.refreshTokenHash := fun ht => hhash ▸ hl.fresh_hash halone hraw ht
  generalize hm' : m.performed c (.storeRefreshToken s) (.ok ())
    { m.world with sessions := m.world.sessions.insert s.refreshTokenHash s } = m'
  have hi : installs m' = (c, s) :: installs m := by
    rw [← hm']; exact Moment.collect_performed_some installOf m _ rfl
  have hr : rotations m' = rotations m := by
    rw [← hm']; exact Moment.collect_performed_none rotationOf m _ rfl
  have hd : draws m' = draws m := by
    rw [← hm']; exact Moment.collect_performed_none drawOf m _ rfl
  have hf : familyDraws m' = familyDraws m := by
    rw [← hm']; exact Moment.collect_performed_none familyDrawOf m _ rfl
  have hg := generations_of_cons hi
  have hw : m'.world = { m.world with
      sessions := m.world.sessions.insert s.refreshTokenHash s } := by rw [← hm']; rfl
  constructor
  case tokens => rw [hw, hd]; exact hl.tokens
  case families => rw [hw, hf]; exact hl.families
  case tokens_nodup => rw [hd]; exact hl.tokens_nodup
  case families_nodup => rw [hf]; exact hl.families_nodup
  case hashes_nodup =>
    rw [hi, List.map_cons, List.nodup_cons]
    refine ⟨?_, hl.hashes_nodup⟩
    rintro hmem
    obtain ⟨⟨c', t⟩, ht, heq⟩ := List.mem_map.mp hmem
    exact hfresh ht heq
  case minted =>
    rw [hi, hd]
    intro c' t ht
    rcases List.mem_cons.mp ht with h | ht
    · obtain ⟨rfl, rfl⟩ := Prod.mk.inj h
      exact ⟨raw, hraw, hhash⟩
    · exact hl.minted c' t ht
  case valid =>
    rw [hi]
    intro c' t ht
    rcases List.mem_cons.mp ht with h | ht
    · obtain ⟨rfl, rfl⟩ := Prod.mk.inj h
      exact hvalid
    · exact hl.valid c' t ht
  case founded =>
    rw [hi, hf]
    intro c' t ht
    rcases List.mem_cons.mp ht with h | ht
    · obtain ⟨rfl, rfl⟩ := Prod.mk.inj h
      exact ⟨c', t, hfamily, List.mem_cons_self ..⟩
    · obtain ⟨c₀, s₀, hdrawn, hs₀⟩ := hl.founded c' t ht
      exact ⟨c₀, s₀, hdrawn, List.mem_cons_of_mem _ hs₀⟩
  case chain =>
    intro familyId
    rw [hg]
    split
    · rename_i heq
      rw [← heq, hnone]
      exact List.isChain_singleton _
    · exact hl.chain familyId
  case founder =>
    intro familyId t ht
    rw [hg] at ht
    split at ht
    · rename_i heq
      rw [← heq, hnone] at ht
      obtain rfl : s = t := by simpa using ht
      exact hfirst
    · exact hl.founder familyId t ht
  case live =>
    intro h t ht
    rw [hw] at ht
    change (m.world.sessions.insert s.refreshTokenHash s).lookup h = some t at ht
    rw [Table.lookup_insert_ite] at ht
    split at ht
    · rename_i heq
      obtain rfl := Option.some.inj ht
      exact ⟨heq.symm, by rw [hg]; simp⟩
    · obtain ⟨hhash', hhead⟩ := hl.live h t ht
      refine ⟨hhash', ?_⟩
      rw [hg, if_neg, hhead]
      intro heq
      rw [← heq, hnone] at hhead
      exact absurd hhead (by simp)
  case rotated =>
    rw [hr]
    intro c' h r hmem
    obtain ⟨-, c'', t, ht, rfl, -⟩ := hl.rotated_from c' h r hmem
    rw [hw]
    change (m.world.sessions.insert s.refreshTokenHash s).lookup _ = none
    rw [Table.lookup_insert_ite, if_neg (hfresh ht)]
    exact hl.rotated c' _ r hmem
  case rotated_from =>
    rw [hr, hi]
    intro c' h r hmem
    obtain ⟨hinst, c'', t, ht, hhash', hsucc⟩ := hl.rotated_from c' h r hmem
    exact ⟨List.mem_cons_of_mem _ hinst, c'', t, List.mem_cons_of_mem _ ht, hhash', hsucc⟩
  case rotations_nodup => rw [hr]; exact hl.rotations_nodup
  case retired =>
    rw [hr, hw]
    exact hl.retired

/-- The live generation is swapped for the next one, under a hash that is fresh. -/
theorem swapped (hl : Lineage d m) {c : ℕ} {h : String} {r live : Session} {raw : String}
    {retired : Table String RetiredRefreshToken} (hlive : m.world.sessions.lookup h = some live)
    (hsucc : Succeeds live r) (hraw : (c, raw) ∈ draws m)
    (hhash : r.refreshTokenHash = d.digest raw) (halone : Past.NoInstall (m.past c))
    (hretires : RetiresTo m.world h live r retired) :
    Lineage d (m.performed c (.rotateRefreshToken h r) (.ok true)
      { m.world with sessions := (m.world.sessions.erase h).insert r.refreshTokenHash r,
                     retired := retired }) := by
  have hfresh : ∀ {c' : ℕ} {t : Session}, (c', t) ∈ installs m →
      t.refreshTokenHash ≠ r.refreshTokenHash := fun ht => hhash ▸ hl.fresh_hash halone hraw ht
  obtain ⟨hliveHash, hhead⟩ := hl.live h live hlive
  obtain ⟨c₁, hinstalled⟩ := hl.installed_of_live hlive
  have hfamily : r.familyId = live.familyId := hsucc.same.familyId
  generalize hm' : m.performed c (.rotateRefreshToken h r) (.ok true)
    { m.world with sessions := (m.world.sessions.erase h).insert r.refreshTokenHash r,
                   retired := retired } = m'
  have hi : installs m' = (c, r) :: installs m := by
    rw [← hm']; exact Moment.collect_performed_some installOf m _ rfl
  have hr : rotations m' = (c, h, r) :: rotations m := by
    rw [← hm']; exact Moment.collect_performed_some rotationOf m _ rfl
  have hd : draws m' = draws m := by
    rw [← hm']; exact Moment.collect_performed_none drawOf m _ rfl
  have hf : familyDraws m' = familyDraws m := by
    rw [← hm']; exact Moment.collect_performed_none familyDrawOf m _ rfl
  have hg := generations_of_cons hi
  have hw : m'.world = { m.world with
      sessions := (m.world.sessions.erase h).insert r.refreshTokenHash r,
      retired := retired } := by rw [← hm']; rfl
  have hlookup : ∀ k, m'.world.sessions.lookup k =
      if k = r.refreshTokenHash then some r else
        if k = h then none else m.world.sessions.lookup k := by
    intro k
    rw [hw]
    change ((m.world.sessions.erase h).insert r.refreshTokenHash r).lookup k = _
    rw [Table.lookup_insert_ite, Table.lookup_erase_ite]
  constructor
  case tokens => rw [hw, hd]; exact hl.tokens
  case families => rw [hw, hf]; exact hl.families
  case tokens_nodup => rw [hd]; exact hl.tokens_nodup
  case families_nodup => rw [hf]; exact hl.families_nodup
  case hashes_nodup =>
    rw [hi, List.map_cons, List.nodup_cons]
    refine ⟨?_, hl.hashes_nodup⟩
    rintro hmem
    obtain ⟨⟨c', t⟩, ht, heq⟩ := List.mem_map.mp hmem
    exact hfresh ht heq
  case minted =>
    rw [hi, hd]
    intro c' t ht
    rcases List.mem_cons.mp ht with h | ht
    · obtain ⟨rfl, rfl⟩ := Prod.mk.inj h
      exact ⟨raw, hraw, hhash⟩
    · exact hl.minted c' t ht
  case valid =>
    rw [hi]
    intro c' t ht
    rcases List.mem_cons.mp ht with h | ht
    · obtain ⟨rfl, rfl⟩ := Prod.mk.inj h
      rw [hfamily]
      exact hl.valid c₁ live hinstalled
    · exact hl.valid c' t ht
  case founded =>
    rw [hi, hf]
    intro c' t ht
    rcases List.mem_cons.mp ht with h | ht
    · obtain ⟨rfl, rfl⟩ := Prod.mk.inj h
      obtain ⟨c₀, s₀, hdrawn, hs₀⟩ := hl.founded c₁ live hinstalled
      exact ⟨c₀, s₀, hfamily ▸ hdrawn, List.mem_cons_of_mem _ hs₀⟩
    · obtain ⟨c₀, s₀, hdrawn, hs₀⟩ := hl.founded c' t ht
      exact ⟨c₀, s₀, hdrawn, List.mem_cons_of_mem _ hs₀⟩
  case chain =>
    intro familyId
    rw [hg]
    split
    · rename_i heq
      -- the newest generation so far is the live one, which `r` succeeds
      rw [← heq, hfamily]
      rw [List.isChain_cons]
      refine ⟨?_, hl.chain live.familyId⟩
      intro t ht
      obtain rfl : live = t := Option.some.inj (hhead.symm.trans ht)
      exact hsucc
    · exact hl.chain familyId
  case founder =>
    intro familyId t ht
    rw [hg] at ht
    split at ht
    · rename_i heq
      rw [← heq, hfamily] at ht
      cases hgen : generations m live.familyId with
      | nil => simp [hgen] at hhead
      | cons a rest =>
        rw [hgen, List.getLast?_cons_cons] at ht
        exact hl.founder live.familyId t (hgen ▸ ht)
    · exact hl.founder familyId t ht
  case live =>
    intro k t ht
    rw [hlookup] at ht
    split at ht
    · rename_i heq
      obtain rfl := Option.some.inj ht
      exact ⟨heq.symm, by rw [hg]; simp⟩
    split at ht
    · exact absurd ht (by simp)
    rename_i hne
    obtain ⟨hhash', hhead'⟩ := hl.live k t ht
    refine ⟨hhash', ?_⟩
    rw [hg, if_neg, hhead']
    -- a family has one live row, and that was the swapped one
    intro heq
    rw [← heq, hfamily, hhead] at hhead'
    obtain rfl := Option.some.inj hhead'
    exact hne (hhash'.symm.trans hliveHash)
  case rotated =>
    rw [hr]
    intro c' k r' hmem
    rw [hlookup]
    rcases List.mem_cons.mp hmem with heq | hmem
    · obtain ⟨rfl, rfl, rfl⟩ : c' = c ∧ k = h ∧ r' = r := by simpa using heq
      have hne : k ≠ r'.refreshTokenHash := hliveHash ▸ hfresh hinstalled
      simp [hne]
    · obtain ⟨-, c'', t, ht, rfl, -⟩ := hl.rotated_from c' k r' hmem
      simp [hfresh ht, hl.rotated c' _ r' hmem]
  case rotated_from =>
    rw [hr, hi]
    intro c' k r' hmem
    rcases List.mem_cons.mp hmem with heq | hmem
    · obtain ⟨rfl, rfl, rfl⟩ : c' = c ∧ k = h ∧ r' = r := by simpa using heq
      exact ⟨List.mem_cons_self .., c₁, live, List.mem_cons_of_mem _ hinstalled, hliveHash, hsucc⟩
    · obtain ⟨hinst, c'', t, ht, hhash', hsucc'⟩ := hl.rotated_from c' k r' hmem
      exact ⟨List.mem_cons_of_mem _ hinst, c'', t, List.mem_cons_of_mem _ ht, hhash', hsucc'⟩
  case rotations_nodup =>
    rw [hr, List.map_cons, List.nodup_cons]
    refine ⟨?_, hl.rotations_nodup⟩
    intro hmem
    obtain ⟨⟨c', k, r'⟩, hold, hk⟩ := List.mem_map.mp hmem
    obtain rfl : k = h := hk
    have := hl.rotated c' k r' hold
    rw [hlive] at this
    exact absurd this (by simp)
  case retired =>
    rw [hr]
    intro k record hrec
    rw [hw] at hrec ⊢
    change retired.lookup k = some record at hrec
    have hold : m.world.retired.lookup k = some record →
        ∃ c' r', (c', k, r') ∈ (c, h, r) :: rotations m ∧
          record.successorHash = r'.refreshTokenHash ∧ record.familyId = r'.familyId ∧
          record.userId = r'.userId ∧ record.retiredAt ≤ m.world.clock := by
      intro hk
      obtain ⟨c', r', hmem, hrest⟩ := hl.retired k record hk
      exact ⟨c', r', List.mem_cons_of_mem _ hmem, hrest⟩
    obtain ⟨-, rfl⟩ | ⟨record', hof, rfl⟩ := hretires
    · exact hold hrec
    · rw [Table.lookup_insert_ite] at hrec
      split at hrec
      · rename_i heq
        obtain rfl := Option.some.inj hrec
        refine ⟨c, r, heq ▸ List.mem_cons_self .., hof.successor, ?_, ?_, ?_⟩
        · rw [hof.family, hfamily]
        · rw [hof.user, hsucc.same.userId]
        · rw [hof.retiredAt]
      · exact hold hrec

/-- What a classification shows is true of the history. -/
theorem trueOf_of_showsAs (hl : Lineage d m) {h : String} {resolution : RefreshResolution}
    (hshows : m.world.ShowsAs h resolution) : TrueOf m h resolution := by
  cases resolution with
  | live s => exact ⟨(hl.live h s hshows).1, hl.installed_of_live hshows⟩
  | superseded s retiredAt =>
    obtain ⟨-, record, hrecord, -, hs⟩ := hshows
    obtain ⟨c, r, hmem, hsucc, -⟩ := hl.retired h record hrecord
    obtain ⟨c', hinstalled⟩ := hl.installed_of_live hs
    have hhash := (hl.live _ s hs).1.trans hsucc
    obtain ⟨-, rfl⟩ := hl.install_unique hinstalled (hl.rotated_from c h r hmem).1 hhash
    exact ⟨c, hmem⟩
  | retired familyId userId retiredAt =>
    obtain ⟨-, record, hrecord, -, rfl, rfl, -⟩ := hshows
    obtain ⟨c, r, hmem, -, hfamily, huser, -⟩ := hl.retired h record hrecord
    exact ⟨c, r, hmem, hfamily.symm, huser.symm⟩
  | unknown => trivial

end Lineage

/-- What was true of the history stays true of it. -/
theorem TrueOf.mono {m' : ServiceMoment} {h : String} {resolution : RefreshResolution}
    (htrue : TrueOf m h resolution) (hi : installs m ⊆ installs m')
    (hr : rotations m ⊆ rotations m') : TrueOf m' h resolution := by
  cases resolution with
  | live s =>
    obtain ⟨hhash, c, hmem⟩ := htrue
    exact ⟨hhash, c, hi hmem⟩
  | superseded s retiredAt =>
    obtain ⟨c, hmem⟩ := htrue
    exact ⟨c, hr hmem⟩
  | retired familyId userId retiredAt =>
    obtain ⟨c, r, hmem, hrest⟩ := htrue
    exact ⟨c, r, hr hmem, hrest⟩
  | unknown => trivial

/-! ## The protocol -/

/-- A call that swaps has read the live generation it replaces, and its replacement is
the next one under a hash it drew. -/
theorem succeeds_of_rotateReady {request : Request} {c : ℕ} {h : String} {r live : Session}
    (hl : Lineage d m) (htruth : Truthful m)
    (hready : Ready d request (m.past c) (.rotateRefreshToken h r))
    (hlive : m.world.sessions.lookup h = some live) :
    Succeeds live r ∧ (∃ raw, (c, raw) ∈ draws m ∧ r.refreshTokenHash = d.digest raw) ∧
      Past.NoInstall (m.past c) ∧
      (d.overflowChecks = true → live.generation.toNat + 1 < 2 ^ 32) := by
  obtain ⟨req, -, -, ⟨live', raw, hpresented, rfl, hminted, -⟩, halone⟩ := hready
  obtain ⟨familyId, rotatedAt, rfl, hraw, hfamily, hchecks⟩ := hminted
  -- the generation that was read is the one that is live
  have hread : ∃ c', (c', live') ∈ installs m := by
    obtain hfirst | ⟨retiredAt, now, hfirst, -⟩ := hpresented
    · exact (htruth c _ _ ((Moment.mem_past ..).mp (Past.mem_of_first hfirst))).2
    · obtain ⟨c', hmem⟩ := htruth c _ _ ((Moment.mem_past ..).mp (Past.mem_of_first hfirst))
      exact ⟨c', (hl.rotated_from c' _ _ hmem).1⟩
  obtain ⟨c', hread⟩ := hread
  obtain ⟨c'', hinstalled⟩ := hl.installed_of_live hlive
  obtain ⟨-, rfl⟩ := hl.install_unique hinstalled hread (hl.live _ live hlive).1
  have hvalid := ne_empty_of_isValidFamilyId (hl.valid c' live hread)
  have hsame : familyId = live.familyId := by
    obtain ⟨-, ⟨hempty, -⟩ | ⟨-, rfl⟩⟩ := hfamily
    · exact absurd hempty hvalid
    · rfl
  subst hsame
  exact ⟨⟨rfl, ⟨rfl, rfl, rfl, rfl, rfl, rfl, rfl, rfl, rfl⟩⟩,
    ⟨raw, Moment.mem_collect_of_past hraw rfl, rfl⟩, halone, hchecks⟩

/-- Every operation of a compliant call keeps the lineage. -/
theorem Lineage.performs {request : Request} {c : ℕ} {x : Choice} {o : Op} {ans : Ans o}
    {w : World} (hl : Lineage d m) (htruth : Truthful m) (hready : Ready d request (m.past c) o)
    (hex : exec d x c o m.world = some (ans, w)) : Lineage d (m.performed c o ans w) := by
  cases storeStep_of_exec hex with
  | drew raw hfresh => exact hl.drew c hfresh
  | drewFamily familyId _ hfresh => exact hl.drewFamily c hfresh
  | stored s =>
    obtain ⟨req, -, ⟨user, raw, familyId, expiresAt, createdAt, rfl, -, hraw, hfamily, hvalid⟩,
      halone⟩ := hready
    exact hl.stored (Moment.mem_collect_of_past hraw rfl) rfl
      (Moment.mem_collect_of_past hfamily rfl) hvalid rfl halone
  | rotated h r live retired hlive huser hfamily hretires =>
    obtain ⟨hsucc, ⟨raw, hraw, hhash⟩, halone, -⟩ := succeeds_of_rotateReady hl htruth hready hlive
    exact hl.swapped hlive hsucc hraw hhash halone hretires
  | shrank hunseen hshrinks =>
    exact hl.shrink (Moment.collect_performed_none _ _ _ hunseen.install)
      (Moment.collect_performed_none _ _ _ hunseen.rotation)
      (Moment.collect_performed_none _ _ _ hunseen.draw)
      (Moment.collect_performed_none _ _ _ hunseen.familyDraw) hshrinks

/-- Every operation keeps the classifications true. -/
theorem Truthful.performs {c : ℕ} {x : Choice} {o : Op} {ans : Ans o} {w : World}
    (hl : Lineage d m) (htruth : Truthful m) (hex : exec d x c o m.world = some (ans, w)) :
    Truthful (m.performed c o ans w) := by
  intro c' h resolution hmem
  have hi := Moment.collect_subset_performed installOf m c o ans w
  have hr := Moment.collect_subset_performed rotationOf m c o ans w
  rcases List.mem_cons.mp hmem with heq | hmem
  · cases heq
    exact (hl.trueOf_of_showsAs (resolve_of_exec hex).1).mono hi hr
  · exact (htruth c' h resolution hmem).mono hi hr

/-- The lineage of session families, kept by every step of the service. -/
def lineageProtocol (d : Deployment) : Protocol (portSemantics d) (Ready d) where
  inv m := Lineage d m ∧ Truthful m
  allowed _ _ _ _ := True
  begins := fun {m c i} h _ => by
    refine ⟨h.1.shrink rfl rfl rfl rfl (.refl _), fun c' k resolution hmem => ?_⟩
    rcases List.mem_cons.mp hmem with heq | hmem
    · exact absurd heq (by simp)
    · exact h.2 c' k resolution hmem
  performs h _ hready _ hex := ⟨h.1.performs h.2 hready hex, h.2.performs h.1 hex⟩
  ends := fun {m c i} h _ => by
    refine ⟨h.1.shrink rfl rfl rfl rfl (.refl _), fun c' k resolution hmem => ?_⟩
    rcases List.mem_cons.mp hmem with heq | hmem
    · exact absurd heq (by simp)
    · exact h.2 c' k resolution hmem
  drifts h hdrift := ⟨h.1.shrink rfl rfl rfl rfl (shrinks_of_drift hdrift).1, h.2⟩

/-- The empty store has a lineage. -/
theorem lineage_start (d : Deployment) (clock : Instant) :
    (lineageProtocol d).inv (ServicePool.start clock).toMoment := by
  refine ⟨?_, by simp [Truthful, ServicePool.start, Pool.initial]⟩
  constructor <;>
    simp [ServicePool.start, Pool.initial, World.empty, draws, familyDraws, installs, rotations,
      generations, Moment.collect]

/-- **In every run of the service, the lineage holds at the end.** -/
theorem lineage_of_run {meets : ServicePool → ServiceAct → Prop} {clock : Instant}
    {p : ServicePool} {as : List ServiceAct}
    (hrun : (service d).Run meets (ServicePool.start clock) as p) :
    Lineage d p.toMoment ∧ Truthful p.toMoment :=
  (lineageProtocol d).run (serve_obeys d)
    (hrun.mono fun _ _ _ _ _ _ _ => trivial) (Disciplined.initial _) (lineage_start d clock)

end OidcExchange
