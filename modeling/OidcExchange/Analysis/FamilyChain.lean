import OidcExchange.Analysis.Lineage
import OidcExchange.Analysis.Undisturbed

/-!
# The chain of a refresh family

The generations of a family, in the order of their installation, replace one another
by committed rotations, agree in everything but hash, number and issue time, and at
most one of them is live. Their numbers are 32-bit counters: they rise by one for each
rotation as long as the counter does not wrap, and a build without overflow checks
lets it wrap.
-/

set_option autoImplicit false

namespace OidcExchange

open Storage Interleaving Service

/-- The swaps committed in a family, newest first: the hash that was replaced and the
generation that replaced it. -/
def committedRotations (m : ServiceMoment) (familyId : String) : List (String × Session) :=
  ((rotations m).map Prod.snd).filter fun e => e.2.familyId == familyId

/-- Each generation of a newest-first list with the hash of the one before it. -/
def replacements : List Session → List (String × Session)
  | newer :: older :: rest => (older.refreshTokenHash, newer) :: replacements (older :: rest)
  | _ => []

/-- A family is a chain: one live generation at most, every generation but the first
installed by a committed rotation of the one before it and numbered one higher, and one
sign-in throughout. -/
structure FamilyChain (m : ServiceMoment) (familyId : String) : Prop where
  oneLive : ∀ h h' s s', m.world.sessions.lookup h = some s →
    m.world.sessions.lookup h' = some s' → s.familyId = familyId → s'.familyId = familyId →
    h = h' ∧ s = s'
  swaps : committedRotations m familyId = replacements (generations m familyId)
  rises : (generations m familyId).IsChain fun newer older =>
    newer.generation.toNat = older.generation.toNat + 1
  same : ∀ first, (generations m familyId).getLast? = some first →
    ∀ s ∈ generations m familyId, s.expiresAt = first.expiresAt ∧ s.userId = first.userId ∧
      s.provider = first.provider ∧ s.familyId = first.familyId ∧ s.location = first.location

/-- The number after that of the generation which the operation replaces is a 32-bit
number, or the build checks for overflow. -/
def NumberFits (d : Deployment) (m : ServiceMoment) (_c : ℕ) (_x : Choice) (o : Op) : Prop :=
  ∀ h r live, o = .rotateRefreshToken h r → m.world.sessions.lookup h = some live →
    d.overflowChecks = true ∨ live.generation.toNat + 1 < 2 ^ 32

/-- What the lineage leaves open: in every family the swaps are the links of the chain
and the numbers rise. -/
def Numbered (m : ServiceMoment) : Prop :=
  ∀ familyId, committedRotations m familyId = replacements (generations m familyId) ∧
    (generations m familyId).IsChain fun newer older =>
      newer.generation.toNat = older.generation.toNat + 1

variable {d : Deployment} {m : ServiceMoment}

/-- A lineage with rising numbers is a chain in every family. -/
theorem familyChain_of_lineage (hl : Lineage d m) (hn : Numbered m) (familyId : String) :
    FamilyChain m familyId where
  oneLive := by
    rintro h h' s s' hs hs' rfl hfamily
    obtain ⟨rfl, hhead⟩ := hl.live h s hs
    obtain ⟨rfl, hhead'⟩ := hl.live h' s' hs'
    rw [hfamily, hhead] at hhead'
    obtain rfl := Option.some.inj hhead'
    exact ⟨rfl, rfl⟩
  swaps := (hn familyId).1
  rises := (hn familyId).2
  same := by
    intro first hfirst s hs
    have hsame := Lineage.sameSignIn_of_isChain (hl.chain familyId) hfirst s hs
    exact ⟨hsame.expiresAt, hsame.userId, hsame.provider, hsame.familyId, hsame.location⟩

/-- A sum that fits is not wrapped. -/
theorem toNat_add_one_of_fits {n : UInt32} (h : n.toNat + 1 < 2 ^ 32) :
    (n + 1).toNat = n.toNat + 1 := by
  rw [UInt32.toNat_add]
  exact Nat.mod_eq_of_lt h

/-- Numbers and swaps only change with what is installed and swapped. -/
theorem Numbered.of_same {m' : ServiceMoment} (hn : Numbered m) (hi : installs m' = installs m)
    (hr : rotations m' = rotations m) : Numbered m' := by
  intro familyId
  simp only [committedRotations, generations, hi, hr]
  exact hn familyId

/-- The first generation of a family has replaced nothing. -/
theorem Numbered.stored (hl : Lineage d m) (hn : Numbered m) {c : ℕ} {s : Session} {w : World}
    (hfamily : (c, s.familyId) ∈ familyDraws m) (halone : Past.NoInstall (m.past c)) :
    Numbered (m.performed c (.storeRefreshToken s) (.ok ()) w) := by
  have hnone := hl.fresh_family halone hfamily
  have hi : installs (m.performed c (.storeRefreshToken s) (.ok ()) w) = (c, s) :: installs m :=
    Moment.collect_performed_some installOf m w rfl
  have hr : committedRotations (m.performed c (.storeRefreshToken s) (.ok ()) w) =
      committedRotations m := by
    funext familyId
    simp only [committedRotations, rotations]
    rw [Moment.collect_performed_none rotationOf m w rfl]
  intro familyId
  rw [hr, Lineage.generations_of_cons hi]
  split
  · rename_i heq
    subst heq
    have hempty : committedRotations m s.familyId = [] := by
      rw [(hn s.familyId).1, hnone]
      rfl
    rw [hempty, hnone]
    exact ⟨rfl, List.isChain_singleton _⟩
  · exact hn familyId

/-- A swap adds one link to the chain of its family. -/
theorem Numbered.swapped (hl : Lineage d m) (hn : Numbered m) {c : ℕ} {h : String}
    {r live : Session} {w : World} (hlive : m.world.sessions.lookup h = some live)
    (hsucc : Succeeds live r) (hfits : live.generation.toNat + 1 < 2 ^ 32) :
    Numbered (m.performed c (.rotateRefreshToken h r) (.ok true) w) := by
  obtain ⟨hhash, hhead⟩ := hl.live h live hlive
  have hi : installs (m.performed c (.rotateRefreshToken h r) (.ok true) w) =
      (c, r) :: installs m := Moment.collect_performed_some installOf m w rfl
  have hr : rotations (m.performed c (.rotateRefreshToken h r) (.ok true) w) =
      (c, h, r) :: rotations m := Moment.collect_performed_some rotationOf m w rfl
  intro familyId
  rw [Lineage.generations_of_cons hi]
  have hcommitted : committedRotations (m.performed c (.rotateRefreshToken h r) (.ok true) w)
      familyId = if r.familyId = familyId then (h, r) :: committedRotations m familyId
        else committedRotations m familyId := by
    simp only [committedRotations, hr, List.map_cons, List.filter_cons, beq_iff_eq]
  rw [hcommitted]
  split
  · rename_i heq
    rw [← heq, hsucc.same.familyId]
    obtain ⟨hswaps, hrises⟩ := hn live.familyId
    -- the newest generation so far is the live one
    obtain ⟨rest, hgen⟩ : ∃ rest, generations m live.familyId = live :: rest := by
      cases hgen : generations m live.familyId with
      | nil => simp [hgen] at hhead
      | cons a rest =>
        obtain rfl : a = live := by simpa [hgen] using hhead
        exact ⟨rest, rfl⟩
    rw [hgen] at hswaps hrises ⊢
    refine ⟨?_, List.isChain_cons_cons.mpr ⟨?_, hrises⟩⟩
    · rw [hswaps, replacements, hhash]
    · rw [hsucc.number]
      exact toNat_add_one_of_fits hfits
  · exact hn familyId

/-- Every operation that does not wrap a number keeps the numbers rising. -/
theorem Numbered.performs {request : Request} {c : ℕ} {x : Choice} {o : Op} {ans : Ans o}
    {w : World} (hl : Lineage d m) (htruth : Truthful m) (hn : Numbered m)
    (hready : Ready d request (m.past c) o) (hfits : NumberFits d m c x o)
    (hex : exec d x c o m.world = some (ans, w)) : Numbered (m.performed c o ans w) := by
  cases storeStep_of_exec hex with
  | drew raw _ => exact hn.of_same rfl rfl
  | drewFamily familyId _ _ => exact hn.of_same rfl rfl
  | stored s =>
    obtain ⟨req, -, ⟨user, raw, familyId, expiresAt, createdAt, rfl, -, -, hfamily, -⟩,
      halone⟩ := hready
    exact hn.stored hl (Moment.mem_collect_of_past hfamily rfl) halone
  | rotated h r live retired hlive _ _ _ =>
    obtain ⟨hsucc, -, -, hchecks⟩ := succeeds_of_rotateReady hl htruth hready hlive
    exact hn.swapped hl hlive hsucc ((hfits h r live rfl hlive).elim hchecks id)
  | shrank hunseen _ =>
    exact hn.of_same (Moment.collect_performed_none _ _ _ hunseen.install)
      (Moment.collect_performed_none _ _ _ hunseen.rotation)

/-- The numbers of the generations, kept by every step that does not wrap one. -/
def numberProtocol (d : Deployment) : Protocol (portSemantics d) (Ready d) where
  inv m := (Lineage d m ∧ Truthful m) ∧ Numbered m
  allowed := NumberFits d
  begins h hunseen := ⟨(lineageProtocol d).begins h.1 hunseen, h.2⟩
  performs h hrunning hready hfits hex :=
    ⟨(lineageProtocol d).performs h.1 hrunning hready trivial hex,
      h.2.performs h.1.1 h.1.2 hready hfits hex⟩
  ends h hrunning := ⟨(lineageProtocol d).ends h.1 hrunning, h.2⟩
  drifts h hdrift := ⟨(lineageProtocol d).drifts h.1 hdrift, h.2⟩

/-- **In every run in which no number wraps, every family is a chain.** -/
theorem familyChain_of_run {d : Deployment} {clock : Instant} {p : ServicePool}
    {as : List ServiceAct}
    (hrun : (service d).Run (Pool.Under (NumberFits d)) (ServicePool.start clock) as p)
    (familyId : String) : FamilyChain p.toMoment familyId := by
  have hstart : (numberProtocol d).inv (ServicePool.start clock).toMoment :=
    ⟨lineage_start d clock, fun _ => ⟨rfl, List.isChain_nil⟩⟩
  obtain ⟨⟨hl, -⟩, hn⟩ :=
    (numberProtocol d).run (serve_obeys d) hrun (Disciplined.initial _) hstart
  exact familyChain_of_lineage hl hn familyId

/-! ## A number that wraps -/

namespace Sample

/-- The `n`-th token: the binary digits of `n`, one for each character of a digest. -/
def token (n : ℕ) : String :=
  String.ofList ((List.range refreshHashHexLen).map fun i => if n.testBit i then '1' else '0')

theorem digest_token (n : ℕ) : digest (token n) = token n := by
  simp [digest, token, refreshHashHexLen]

/-- Small numbers have different tokens. -/
theorem token_inj {m n : ℕ} (hm : m < 2 ^ 64) (hn : n < 2 ^ 64) (h : token m = token n) :
    m = n := by
  have hlist : (List.range refreshHashHexLen).map (fun i => if m.testBit i then '1' else '0') =
      (List.range refreshHashHexLen).map (fun i => if n.testBit i then '1' else '0') :=
    String.ofList_injective h
  refine Nat.eq_of_testBit_eq fun i => ?_
  by_cases hi : i < refreshHashHexLen
  · have := List.map_inj_left.mp hlist i (List.mem_range.mpr hi)
    by_cases hbm : m.testBit i <;> by_cases hbn : n.testBit i <;> simp_all
  · have hpow : 2 ^ 64 ≤ 2 ^ i := Nat.pow_le_pow_right (by decide) (Nat.le_of_not_lt hi)
    rw [Nat.testBit_lt_two_pow (lt_of_lt_of_le hm hpow),
      Nat.testBit_lt_two_pow (lt_of_lt_of_le hn hpow)]

/-- One family has been rotated `n` times, by one call after another. -/
structure Cycled (n : ℕ) (p : ServicePool) : Prop where
  idle : ∀ c, n < c → p.calls c = none
  clock : p.world.clock = 0
  drawn : ∀ raw ∈ p.world.tokens, ∃ k ≤ n, raw = token k
  account : ∃ user, p.world.users.lookup theUser = some user ∧ user.status = .active
  here : ∃ s, p.world.sessions.lookup (token n) = some s ∧ s.generation = UInt32.ofNat n ∧
    s.userId = theUser ∧ s.familyId = theFamily ∧ 0 ≤ s.expiresAt ∧
    (n = 0 ∨ ∃ c h, (c, h, s) ∈ rotations p.toMoment)

/-- A first sign-in founds the family. -/
theorem cycled_zero (checks : Bool) : ∃ as p,
    (service (deployment checks)).Run System.anyStep (ServicePool.start 0) as p ∧ Cycled 0 p := by
  have hsolo : (Pool.solo (portSemantics (deployment checks)) 0
      (registerChoices ++ storeChoices (token 0) theFamily)
      (serve (deployment checks) (.exchange login)) [] (World.empty 0)).any (fun r =>
        decide (r.2.2.clock = 0) && decide (r.2.2.tokens = [token 0]) &&
        (r.2.2.users.lookup theUser).any (fun user => decide (user.status = .active)) &&
        (r.2.2.sessions.lookup (token 0)).any fun s =>
          decide (s.generation = 0) && decide (s.userId = theUser) &&
          decide (s.familyId = theFamily) && decide (0 ≤ s.expiresAt)) = true := by
    cases checks <;> decide +kernel
  obtain ⟨⟨rest, past, w⟩, hsolo, htest⟩ := (Option.any_eq_true _ _).mp hsolo
  simp only [Bool.and_eq_true, decide_eq_true_eq, Option.any_eq_true] at htest
  obtain ⟨⟨⟨hclock, htokens⟩, haccount⟩, s, hs, hfields⟩ := htest
  obtain ⟨q, hrun, hw, -, hcalls⟩ := Pool.run_of_begin_solo (serve (deployment checks))
    (p := ServicePool.start 0) (c := 0) rfl rfl hsolo
  refine ⟨_, q, hrun, ?_, hw ▸ hclock, ?_, hw ▸ haccount, s, hw ▸ hs, ?_⟩
  · intro c hc
    rw [hcalls, Function.update_of_ne hc.ne']
    rfl
  · intro raw hraw
    rw [hw, htokens] at hraw
    exact ⟨0, Nat.le_refl 0, List.mem_singleton.mp hraw⟩
  · obtain ⟨⟨⟨hgen, huser⟩, hfam⟩, hexp⟩ := hfields
    exact ⟨hgen, huser, hfam, hexp, .inl rfl⟩

/-- A record retired at the epoch is kept for a day at most. -/
theorem retentionDeadline_zero (expiresAt : Instant) :
    World.retentionDeadline 0 86400 expiresAt =
      some (if 86400 * nanosPerSec < expiresAt then 86400 * nanosPerSec else expiresAt) := by
  have hspan : spanOfSecs 86400 = some (86400 * nanosPerSec) := by decide
  have hadd : Instant.add 0 (86400 * nanosPerSec) = some (86400 * nanosPerSec) := by decide
  simp only [World.retentionDeadline, hspan, hadd]
  rfl

section Succ

variable {checks : Bool} {as : List ServiceAct} {p : ServicePool} {n : ℕ}

/-- The next token of a cycle is not the digest of one drawn before. -/
theorem Cycled.token_fresh (h : Cycled n p) (hn : n < 2 ^ 32) :
    ∀ raw ∈ p.world.tokens, token (n + 1) ≠ digest raw := by
  intro raw hraw heq
  obtain ⟨k, hk, rfl⟩ := h.drawn raw hraw
  rw [digest_token] at heq
  have := token_inj (by omega) (by omega) heq
  omega

/-- Nothing stands in the way of the next refresh of a cycle. -/
theorem Cycled.swappable (hl : Lineage (deployment checks) p.toMoment) (h : Cycled n p)
    (hn : n < 2 ^ 32) (hchecks : checks = true → n + 1 < 2 ^ 32) {s : Session} {user : User}
    (hs : p.world.sessions.lookup (token n) = some s) (hgen : s.generation = UInt32.ofNat n)
    (hfam : s.familyId = theFamily) (hexp : 0 ≤ s.expiresAt)
    (haccount : p.world.users.lookup s.userId = some user) (hactive : user.status = .active) :
    Swappable (deployment checks) p.world (present (token n)) s user (token (n + 1))
      (if 86400 * nanosPerSec < s.expiresAt then 86400 * nanosPerSec else s.expiresAt) := by
  have hnew := h.token_fresh hn
  have hhash : s.refreshTokenHash = token n := (hl.live _ s hs).1
  have hdigest : ∀ k, (deployment checks).digest (token k) = token k := digest_token
  constructor
  case rotation => rfl
  case presented =>
    intro hempty
    have hlen := digest_length (token n)
    rw [digest_token, show token n = "" from hempty] at hlen
    exact absurd hlen (by decide)
  case here =>
    show p.world.sessions.lookup ((deployment checks).digest (token n)) = some s
    rw [hdigest]
    exact hs
  case hash => exact hhash.trans (hdigest n).symm
  case family => rw [hfam]; decide
  case fits =>
    intro hc
    rw [hgen, UInt32.toNat_ofNat_of_lt' (by simpa using hn)]
    exact hchecks hc
  case unexpired => rw [h.clock]; exact hexp
  case account => exact haccount
  case active => exact hactive
  case fresh =>
    rw [hdigest]
    intro hmem
    obtain ⟨raw, hraw, heq⟩ := List.mem_map.mp hmem
    exact hnew raw hraw heq.symm
  case other =>
    rw [hdigest, hhash]
    intro heq
    have := token_inj (by omega) (by omega) heq
    omega
  case notLive =>
    rw [hdigest]
    cases hk : p.world.sessions.lookup (token (n + 1)) with
    | none => rfl
    | some t =>
      obtain ⟨raw, hraw, heq⟩ := hl.drawn_of_live hk
      exact absurd heq (hnew raw hraw)
  case notRetired =>
    rw [hdigest]
    cases hk : p.world.retired.lookup (token (n + 1)) with
    | none => rfl
    | some t =>
      obtain ⟨raw, hraw, heq⟩ := hl.drawn_of_retired hk
      exact absurd heq (hnew raw hraw)
  case deadline =>
    rw [h.clock]
    exact retentionDeadline_zero s.expiresAt

/-- One more refresh rotates the family once more. -/
theorem Cycled.succ
    (hrun : (service (deployment checks)).Run System.anyStep (ServicePool.start 0) as p)
    (h : Cycled n p) (hn : n < 2 ^ 32) (hchecks : checks = true → n + 1 < 2 ^ 32) :
    ∃ as' q, (service (deployment checks)).Run System.anyStep (ServicePool.start 0) as' q ∧
      Cycled (n + 1) q := by
  obtain ⟨hl, -⟩ := lineage_of_run hrun
  have hcompliant := compliant_of_run _ hrun
  obtain ⟨user, haccount, hactive⟩ := h.account
  obtain ⟨s, hs, hgen, huser, hfam, hexp, -⟩ := h.here
  have hswap := h.swappable hl hn hchecks hs hgen hfam hexp (huser ▸ haccount) hactive
  have hidle := h.idle (n + 1) (Nat.lt_succ_self n)
  obtain ⟨q, hrun', hw, hpast, hcalls⟩ := Pool.run_of_begin_solo
    (serve (deployment checks)) hidle (hcompliant.unseen _ hidle).past
    (refresh_alone hswap (n + 1))
  have hdigest : (deployment checks).digest (token (n + 1)) = token (n + 1) := digest_token _
  refine ⟨_, q, hrun.trans hrun', ?_⟩
  constructor
  case idle =>
    intro c hc
    rw [hcalls, Function.update_of_ne (by omega)]
    exact h.idle c (by omega)
  case clock => rw [hw]; exact h.clock
  case drawn =>
    intro raw hraw
    rw [hw] at hraw
    rcases List.mem_cons.mp hraw with rfl | hraw
    · exact ⟨n + 1, Nat.le_refl _, rfl⟩
    · obtain ⟨k, hk, rfl⟩ := h.drawn raw hraw
      exact ⟨k, by omega, rfl⟩
  case account => rw [hw]; exact ⟨user, haccount, hactive⟩
  case here =>
    have hswapped : (n + 1, s.refreshTokenHash,
        successorOf (deployment checks) p.world s (token (n + 1))) ∈ rotations q.toMoment := by
      have hmem := List.mem_of_mem_head? (congrArg List.head? hpast)
      exact Moment.mem_collect_of_past hmem rfl
    refine ⟨successorOf (deployment checks) p.world s (token (n + 1)), ?_, ?_, ?_, ?_, ?_, .inr ?_⟩
    · rw [hw, World.swapped, hdigest, AList.lookup_insert]
    · rw [successorOf_generation, hgen]
      simp
    · rw [successorOf_userId, huser]
    · rw [successorOf_familyId, hfam]
    · rw [successorOf_expiresAt]
      exact hexp
    · exact ⟨n + 1, _, hswapped⟩

end Succ

/-- A family can be rotated any number of times up to a full turn of its counter. -/
theorem cycled_of_le {n : ℕ} (hn : n ≤ 2 ^ 32) : ∃ as p,
    (service (deployment false)).Run System.anyStep (ServicePool.start 0) as p ∧ Cycled n p := by
  induction n with
  | zero => exact cycled_zero false
  | succ n ih =>
    obtain ⟨as, p, hrun, hcycled⟩ := ih (by omega)
    exact hcycled.succ hrun (by omega) (by simp)

end Sample

/-- A build that checks for overflow wraps no number. -/
theorem numberFits_of_checks (hchecks : d.overflowChecks = true) (m : ServiceMoment) (c : ℕ)
    (x : Choice) (o : Op) : NumberFits d m c x o :=
  fun _ _ _ _ _ => .inl hchecks

/-- A sign-in and one refresh, on a build that checks for overflow. -/
theorem familyChain_of_refresh : ∃ as p,
    (service (Sample.deployment true)).Run
      (Pool.Under (NumberFits (Sample.deployment true))) (ServicePool.start 0) as p ∧
    Sample.Cycled 1 p ∧ FamilyChain p.toMoment Sample.theFamily := by
  obtain ⟨as₀, p₀, hrun₀, hcycled₀⟩ := Sample.cycled_zero true
  obtain ⟨as, p, hrun, hcycled⟩ := hcycled₀.succ hrun₀ (by decide) (fun _ => by decide)
  have hfits : (service (Sample.deployment true)).Run
      (Pool.Under (NumberFits (Sample.deployment true))) (ServicePool.start 0) as p :=
    hrun.mono fun _ _ _ _ _ _ _ => numberFits_of_checks rfl _ _ _ _
  exact ⟨as, p, hfits, hcycled, familyChain_of_run hfits _⟩

/-- A live generation that a swap installed has a number above zero in a chain. -/
theorem FamilyChain.number_pos (hl : Lineage d m) {c : ℕ} {h : String} {s : Session}
    (hchain : FamilyChain m s.familyId) (hs : m.world.sessions.lookup s.refreshTokenHash = some s)
    (hr : (c, h, s) ∈ rotations m) : 0 < s.generation.toNat := by
  obtain ⟨-, c', t, ht, hhash, hsucc⟩ := hl.rotated_from c h s hr
  have hmem : t ∈ generations m s.familyId :=
    mem_generations.mpr ⟨⟨c', ht⟩, hsucc.same.familyId.symm⟩
  have hne : t ≠ s := by
    rintro rfl
    have hgone := hl.rotated c h t hr
    rw [← hhash, hs] at hgone
    exact absurd hgone (by simp)
  have hhead := (hl.live _ s hs).2
  have hrises := hchain.rises
  cases hgen : generations m s.familyId with
  | nil => simp [hgen] at hhead
  | cons a rest =>
    obtain rfl : a = s := by simpa [hgen] using hhead
    cases rest with
    | nil => exact absurd (by simpa [hgen] using hmem) hne
    | cons b rest =>
      rw [hgen] at hrises
      have := (List.isChain_cons_cons.mp hrises).1
      omega

/-- **Without overflow checks the number of a family wraps after a full turn**: a run
reaches a state in which a family is not a chain. -/
theorem familyChain_broken : ∃ as p,
    (service (Sample.deployment false)).Run System.anyStep (ServicePool.start 0) as p ∧
      ¬ FamilyChain p.toMoment Sample.theFamily := by
  obtain ⟨as, p, hrun, hcycled⟩ := Sample.cycled_of_le (Nat.le_refl (2 ^ 32))
  refine ⟨as, p, hrun, fun hchain => ?_⟩
  obtain ⟨hl, -⟩ := lineage_of_run hrun
  obtain ⟨s, hs, hgen, -, hfam, -, hzero | ⟨c, h, hr⟩⟩ := hcycled.here
  · exact absurd hzero (by decide)
  · rw [← hfam] at hchain
    have hpos := hchain.number_pos hl ((hl.live _ s hs).1.symm ▸ hs) hr
    rw [hgen] at hpos
    exact absurd hpos (by decide)

end OidcExchange
