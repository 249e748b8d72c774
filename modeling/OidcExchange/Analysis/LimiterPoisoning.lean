import OidcExchange.Analysis.AdminLockout
import OidcExchange.Analysis.FixedWindowSteps
import OidcExchange.Texts.Decimal

/-!
# The lock of the operator plane's limiter

A new peer in a full table displaces the bucket that began first. Where that is its own, which takes
an instant no later than any recorded one, the call panics under the lock and throttling is off from
then on. It is kept where some bucket began strictly before.
-/

set_option autoImplicit false

namespace OidcExchange

open Storage Interleaving Throttling

/-- The bucket with the earliest start. -/
theorem startedAt_oldestKey {κ : Type} [DecidableEq κ] {t : Table κ Bucket} {k : κ}
    (h : oldestKey t = some k) {k' : κ} {bucket : Bucket} (hbucket : t.lookup k' = some bucket) :
    ∃ oldest, t.lookup k = some oldest ∧ oldest.startedAt ≤ bucket.startedAt := by
  obtain ⟨e, he, rfl⟩ := Option.map_eq_some_iff.mp h
  have hmem : (⟨k', bucket⟩ : Sigma fun _ : κ => Bucket) ∈ t.entries :=
    AList.mem_lookup_iff.mp hbucket
  have hlookup : t.lookup e.1 = some e.2 := AList.mem_lookup_iff.mpr (List.argmin_mem he)
  exact ⟨e.2, hlookup, @List.le_of_mem_argmin _ _ _ (fun e => e.2.startedAt) _ _ _ hmem he⟩

namespace AdminAuthRateLimiter

variable {l : AdminAuthRateLimiter} {peer : String} {now : ℕ} {peers : Table String Bucket}

/-- The peers whose buckets have not run out. -/
def living (l : AdminAuthRateLimiter) (now : ℕ) (peers : Table String Bucket) :
    Table String Bucket :=
  peers.deleteWhere fun _ bucket => !decide (now - bucket.startedAt < l.span)

/-- A new peer that finds the table full is not itself the first to go. -/
def SparesNewcomer (l : AdminAuthRateLimiter) (peer : String) (now : ℕ)
    (peers : Table String Bucket) : Prop :=
  (l.living now peers).lookup peer = none → maxTrackedPeers ≤ (l.living now peers).entries.length →
    ∃ peer' bucket, (l.living now peers).lookup peer' = some bucket ∧ bucket.startedAt < now

/-- **Entering a peer** that is not itself displaced. -/
theorem enter_some (habsent : peers.lookup peer = none)
    (hbound : peers.entries.length ≤ maxTrackedPeers)
    (hspares : maxTrackedPeers ≤ peers.entries.length →
      ∃ peer' bucket, peers.lookup peer' = some bucket ∧ bucket.startedAt < now) :
    ∃ entered, enter peer now peers = some entered ∧ entered.lookup peer = some ⟨now, 0⟩ ∧
      entered.entries.length ≤ maxTrackedPeers := by
  have hself : (peers.insert peer ⟨now, 0⟩).lookup peer = some ⟨now, 0⟩ := AList.lookup_insert peers
  have hlength : (peers.insert peer ⟨now, 0⟩).entries.length = peers.entries.length + 1 := by
    rw [Table.length_insert, habsent]
    rfl
  by_cases hover : maxTrackedPeers < (peers.insert peer ⟨now, 0⟩).entries.length
  · obtain ⟨oldest, holdest⟩ := oldestKey_isSome (Nat.zero_lt_of_lt hover)
    obtain ⟨peer', bucket, hbucket, hearlier⟩ := hspares (by omega)
    have hother : peer' ≠ peer := by
      rintro rfl
      exact nomatch hbucket.symm.trans habsent
    obtain ⟨first, hfirst, hle⟩ := startedAt_oldestKey holdest
      ((AList.lookup_insert_ne hother).trans hbucket)
    have hne : oldest ≠ peer := by
      rintro rfl
      obtain rfl := Option.some.inj (hself.symm.trans hfirst)
      exact absurd hearlier (Nat.not_lt_of_le hle)
    refine ⟨(peers.insert peer ⟨now, 0⟩).erase oldest, ?_, ?_, ?_⟩
    · simp only [enter, if_pos hover, holdest, if_neg hne]
    · rw [AList.lookup_erase_ne hne.symm, hself]
    · have herased := Table.length_erase (mem_of_oldestKey holdest)
      omega
  · exact ⟨_, if_neg hover, hself, Nat.le_of_not_lt hover⟩

/-- A new peer that comes no later than the others is its own victim in a full table. -/
theorem enter_none (habsent : peers.lookup peer = none)
    (hfull : maxTrackedPeers ≤ peers.entries.length)
    (hlate : ∀ peer' bucket, peers.lookup peer' = some bucket → now ≤ bucket.startedAt) :
    enter peer now peers = none := by
  have hlength : (peers.insert peer ⟨now, 0⟩).entries.length = peers.entries.length + 1 := by
    rw [Table.length_insert, habsent]
    rfl
  have hover : maxTrackedPeers < (peers.insert peer ⟨now, 0⟩).entries.length := by omega
  have hentries : (peers.insert peer ⟨now, 0⟩).entries = ⟨peer, ⟨now, 0⟩⟩ :: peers.entries := by
    rw [AList.entries_insert, List.kerase_of_notMem_keys]
    exact fun hmem => by simpa [habsent] using AList.lookup_isSome.mpr (AList.mem_keys.mpr hmem)
  have holdest : oldestKey (peers.insert peer ⟨now, 0⟩) = some peer := by
    have hfirst : (peers.insert peer ⟨now, 0⟩).entries.argmin (fun e => e.2.startedAt) =
        some ⟨peer, ⟨now, 0⟩⟩ := by
      rw [hentries, List.argmin_eq_some_iff]
      refine ⟨List.mem_cons_self, fun e he => ?_, fun e _ _ => by simp⟩
      obtain rfl | he := List.mem_cons.mp he
      · exact Nat.le_refl _
      · exact hlate e.1 e.2 (AList.mem_lookup_iff.mpr he)
    rw [oldestKey, hfirst]
    rfl
  simp only [enter, if_pos hover, holdest, if_true]

theorem liveBuckets_of_kept {bucket : Bucket} (h : (l.living now peers).lookup peer = some bucket) :
    liveBuckets l.span peer now peers = some (l.living now peers, bucket) := by
  rw [living] at h ⊢
  simp only [liveBuckets, h]

theorem liveBuckets_of_new {entered : Table String Bucket} {bucket : Bucket}
    (h : (l.living now peers).lookup peer = none)
    (henter : enter peer now (l.living now peers) = some entered)
    (hself : entered.lookup peer = some bucket) :
    liveBuckets l.span peer now peers = some (entered, bucket) := by
  rw [living] at h henter
  simp only [liveBuckets, h, henter, hself, Option.bind_eq_bind, Option.bind_some]

theorem liveBuckets_some (hspares : l.SparesNewcomer peer now peers)
    (hbound : peers.entries.length ≤ maxTrackedPeers) :
    ∃ live, liveBuckets l.span peer now peers = some (live, l.entered now (peers.lookup peer)) ∧
      live.lookup peer = some (l.entered now (peers.lookup peer)) ∧
      live.entries.length ≤ maxTrackedPeers := by
  have hliving : (l.living now peers).entries.length ≤ maxTrackedPeers :=
    (List.length_filter_le _ _).trans hbound
  have hentered : l.entered now (peers.lookup peer) =
      ((l.living now peers).lookup peer).getD ⟨now, 0⟩ :=
    (congrArg (fun kept : Option Bucket => kept.getD ⟨now, 0⟩) lookup_live).symm
  rw [hentered]
  cases hkept : (l.living now peers).lookup peer with
  | some bucket => exact ⟨_, liveBuckets_of_kept hkept, hkept, hliving⟩
  | none =>
    obtain ⟨entered, henter, hself, hlength⟩ := enter_some hkept hliving (hspares hkept)
    exact ⟨entered, liveBuckets_of_new hkept henter hself, hself, hlength⟩

/-- The decision of a call from the bucket that is entered for it, and that bucket afterwards. -/
def ruling (l : AdminAuthRateLimiter) (kind : PeerCallKind) (bucket : Bucket) (now : ℕ) :
    RateLimitDecision × Bucket :=
  match kind with
  | .check => (l.decisionAt bucket now l.span, bucket)
  | .consume => l.recorded bucket now l.span

/-- **A call** that displaces nobody in its own favour is answered from its bucket, and keeps the
bound. -/
theorem callAt_ruling (hfits : l.span ≤ maxDuration) {c : PeerCall} {state : PeerBuckets}
    (hsound : state.poisoned = false) (hbound : state.peers.entries.length ≤ maxTrackedPeers)
    (hspares : l.SparesNewcomer c.peer c.now state.peers) :
    ∃ peers', l.callAt c state =
        (some (l.ruling c.kind (l.entered c.now (state.peers.lookup c.peer)) c.now).1,
          { state with peers := peers' }) ∧
      peers'.lookup c.peer =
        some (l.ruling c.kind (l.entered c.now (state.peers.lookup c.peer)) c.now).2 ∧
      peers'.entries.length ≤ maxTrackedPeers := by
  obtain ⟨kind, peer, now⟩ := c
  obtain ⟨live, hlive, hself, hlength⟩ := liveBuckets_some hspares hbound
  cases kind with
  | check =>
    refine ⟨live, ?_, hself, hlength⟩
    simp [callAt, checkAt, withState, hsound, bucketLifetime_eq hfits, hlive, ruling]
  | consume =>
    refine ⟨_, ?_, AList.lookup_insert live, ?_⟩
    · simp [callAt, consumeAt, withState, hsound, bucketLifetime_eq hfits, hlive, ruling]
    · rw [Table.length_insert, hself]
      exact hlength

/-- A call that would have to displace itself panics under the lock. -/
theorem callAt_none (hfits : l.span ≤ maxDuration) {c : PeerCall} {state : PeerBuckets}
    (hsound : state.poisoned = false) (hspares : ¬ l.SparesNewcomer c.peer c.now state.peers) :
    l.callAt c state = (none, { state with poisoned := true }) := by
  obtain ⟨kind, peer, now⟩ := c
  simp only [SparesNewcomer, not_forall, not_exists, not_and, Nat.not_lt] at hspares
  obtain ⟨habsent, hfull, hlate⟩ := hspares
  have hlive : liveBuckets l.span peer now state.peers = none := by
    have henter := enter_none habsent hfull hlate
    simp only [living] at habsent henter
    simp only [liveBuckets, habsent, henter, bind, Option.bind_none]
  cases kind with
  | check => simp [callAt, checkAt, withState, hsound, bucketLifetime_eq hfits, hlive]
  | consume => simp [callAt, consumeAt, withState, hsound, bucketLifetime_eq hfits, hlive]

/-- Whatever a call does, the bound is kept. -/
theorem callAt_bounded {c : PeerCall} {state : PeerBuckets}
    (hbound : state.peers.entries.length ≤ maxTrackedPeers) :
    (l.callAt c state).2.peers.entries.length ≤ maxTrackedPeers := by
  cases hsound : state.poisoned with
  | true =>
    rw [callAt_of_poisoned c hsound]
    exact hbound
  | false =>
    by_cases hfits : l.span ≤ maxDuration
    · by_cases hspares : l.SparesNewcomer c.peer c.now state.peers
      · obtain ⟨peers', hcall, -, hbounded⟩ := callAt_ruling hfits hsound hbound hspares
        rw [hcall]
        exact hbounded
      · rw [callAt_none hfits hsound hspares]
        exact hbound
    · rw [callAt_of_overflow (Nat.lt_of_not_le hfits) c hsound]
      exact hbound

end AdminAuthRateLimiter

/-! ## Runs -/

theorem bounded_of_run {l : AdminAuthRateLimiter} {meets : PeerLog → PeerMove → Prop}
    {as : List PeerMove} {log : PeerLog}
    (hrun : (adminLimiter l).Run meets (.start noPeers) as log) :
    log.state.peers.entries.length ≤ maxTrackedPeers := by
  refine hrun.preserves
    (I := fun log : PeerLog => log.state.peers.entries.length ≤ maxTrackedPeers)
    (fun log m log' h _ hstep => ?_) (Nat.zero_le _)
  obtain ⟨c, rfl, rfl⟩ | ⟨state, rfl, hsame, rfl⟩ := Interleaving.Service.step_cases hstep
  · exact AdminAuthRateLimiter.callAt_bounded h
  · exact hsame.1.length_eq ▸ h

/-- Every answer so far came from under a sound lock, and the bound holds. -/
structure StaysSound (log : PeerLog) : Prop where
  answered : ∀ e ∈ log.served, e.2.decision ≠ none
  sound : log.state.poisoned = false
  bounded : log.state.peers.entries.length ≤ maxTrackedPeers

/-- Whoever calls, whenever its instant was read, does not have to displace itself. -/
def SparesNewcomers (l : AdminAuthRateLimiter) (log : PeerLog) (m : PeerMove) : Prop :=
  l.failureWindow + l.lockout ≤ maxDuration ∧
    ∀ c, m = .call c → l.SparesNewcomer c.peer c.now log.state.peers

/-- **The limiter does not disable itself** in a run whose newcomers are spared. -/
theorem limiter_stays_sound (l : AdminAuthRateLimiter) (as : List PeerMove) (log : PeerLog)
    (hrun : (adminLimiter l).Run (SparesNewcomers l) (.start noPeers) as log) :
    StaysSound log := by
  refine hrun.preserves (fun log m log' h hmeets hstep => ?_) ⟨by simp [Log.start], rfl, Nat.zero_le _⟩
  obtain ⟨c, rfl, rfl⟩ | ⟨state, rfl, hsame, rfl⟩ := Interleaving.Service.step_cases hstep
  · obtain ⟨peers', hcall, -, hbounded⟩ :=
      AdminAuthRateLimiter.callAt_ruling hmeets.1 h.sound h.bounded (hmeets.2 c rfl)
    have hstate : (l.service.answer c log).state = { log.state with peers := peers' } :=
      congrArg Prod.snd hcall
    refine ⟨fun e he => ?_, hstate ▸ h.sound, hstate ▸ hbounded⟩
    obtain rfl | he := List.mem_cons.mp he
    · have hdecision := congrArg Prod.fst hcall
      exact fun hnone => nomatch hdecision.symm.trans hnone
    · exact h.answered e he
  · exact ⟨h.answered, hsame.2.trans h.sound, hsame.1.length_eq ▸ h.bounded⟩

/-- Two peers, the second with an instant read before that of the first. -/
theorem limiter_stays_sound_out_of_turn :
    ∃ as log, (adminLimiter (guessLimiter 5 (by decide))).Run
      (SparesNewcomers (guessLimiter 5 (by decide))) (.start noPeers) as log ∧
      as.length = 2 ∧ StaysSound log := by
  have hroom : ∀ peer now (peers : Table String Bucket), peers.entries.length ≤ 1 →
      (guessLimiter 5 (by decide)).SparesNewcomer peer now peers := by
    intro peer now peers hfew _ hfull
    have hliving : ((guessLimiter 5 (by decide)).living now peers).entries.length ≤ 1 :=
      (List.length_filter_le _ _).trans hfew
    exact absurd (hfull.trans hliving) (by decide)
  have hfirst : (adminLimiter (guessLimiter 5 (by decide))).Run
      (SparesNewcomers (guessLimiter 5 (by decide))) (.start noPeers)
      [.call ⟨.consume, "192.0.2.7", 5⟩]
      ((guessLimiter 5 (by decide)).service.answer ⟨.consume, "192.0.2.7", 5⟩ (.start noPeers)) :=
    .single ⟨by decide, fun c _ => hroom c.peer c.now _ (Nat.zero_le 1)⟩ rfl
  have hsecond := hfirst.trans
    (.single ⟨by decide, fun c _ => hroom c.peer c.now _ (by decide +kernel)⟩
      (a := .call ⟨.check, "192.0.2.8", 3⟩) rfl)
  exact ⟨_, _, hsecond, rfl, limiter_stays_sound _ _ _ hsecond⟩

/-! ## A crowd -/

/-- The limiter stays sound in every run. -/
def NeverDisablesItself (l : AdminAuthRateLimiter) : Prop :=
  ∀ as log, (adminLimiter l).Run System.anyStep (.start noPeers) as log → StaysSound log

/-- Peer after peer. -/
def crowdPeer (n : ℕ) : String := "2001:db8::" ++ n.repr

theorem crowdPeer_inj {n n' : ℕ} (h : crowdPeer n = crowdPeer n') : n = n' := by
  have hrepr : n.repr = n'.repr := (String.append_right_inj _).mp h
  have hread := @Texts.parseBounded_repr (n + n' + 1) n (by omega)
  rw [hrepr, Texts.parseBounded_repr (by omega)] at hread
  exact (Except.ok.inj hread).symm

/-- The check of a peer. -/
def crowdCheck (n now : ℕ) : PeerCall := ⟨.check, crowdPeer n, now⟩

/-- The first peers have been entered at one instant. -/
structure Crowd (n : ℕ) (state : PeerBuckets) : Prop where
  sound : state.poisoned = false
  size : state.peers.entries.length = n
  members : ∀ e ∈ state.peers.entries, (∃ i < n, e.1 = crowdPeer i) ∧ e.2 = ⟨1, 0⟩

variable {l : AdminAuthRateLimiter} {n now : ℕ} {state : PeerBuckets}

theorem Crowd.absent (h : Crowd n state) : state.peers.lookup (crowdPeer n) = none := by
  cases hlookup : state.peers.lookup (crowdPeer n) with
  | none => rfl
  | some bucket =>
    obtain ⟨⟨i, hi, heq⟩, -⟩ := h.members _ (AList.mem_lookup_iff.mp hlookup)
    exact absurd (crowdPeer_inj heq) (Nat.ne_of_gt hi)

/-- Nobody in the crowd has run out. -/
theorem Crowd.living_eq (h : Crowd n state) (hnow : now ≤ 1) :
    l.living now state.peers = state.peers := by
  have hall : ∀ e ∈ state.peers.entries, (!!decide (now - e.2.startedAt < l.span)) = true := by
    intro e he
    have hpos := l.span_pos
    rw [(h.members e he).2]
    simp only [Bool.not_not, decide_eq_true_eq]
    omega
  exact AList.ext (List.filter_eq_self.mpr hall)

theorem Crowd.next (hfits : l.span ≤ maxDuration) (h : Crowd n state) (hn : n < maxTrackedPeers) :
    Crowd (n + 1) (l.callAt (crowdCheck n 1) state).2 := by
  have hlength : (state.peers.insert (crowdPeer n) ⟨1, 0⟩).entries.length = n + 1 := by
    rw [Table.length_insert, h.absent, h.size]
    rfl
  have hnot : ¬ maxTrackedPeers < (state.peers.insert (crowdPeer n) ⟨1, 0⟩).entries.length := by
    omega
  have henter : AdminAuthRateLimiter.enter (crowdPeer n) 1 state.peers =
      some (state.peers.insert (crowdPeer n) ⟨1, 0⟩) := if_neg hnot
  have hliving : (state.peers.deleteWhere fun _ bucket =>
      !decide (1 - bucket.startedAt < l.span)) = state.peers := h.living_eq (Nat.le_refl 1)
  have hlive : AdminAuthRateLimiter.liveBuckets l.span (crowdPeer n) 1 state.peers =
      some (state.peers.insert (crowdPeer n) ⟨1, 0⟩, ⟨1, 0⟩) := by
    simp [AdminAuthRateLimiter.liveBuckets, hliving, h.absent, henter]
  have hstate : (l.callAt (crowdCheck n 1) state).2 =
      { state with peers := state.peers.insert (crowdPeer n) ⟨1, 0⟩ } := by
    simp [crowdCheck, AdminAuthRateLimiter.callAt, AdminAuthRateLimiter.checkAt,
      AdminAuthRateLimiter.withState, h.sound, AdminAuthRateLimiter.bucketLifetime_eq hfits, hlive]
  rw [hstate]
  refine ⟨h.sound, hlength, fun e he => ?_⟩
  rw [AList.entries_insert] at he
  obtain rfl | he := List.mem_cons.mp he
  · exact ⟨⟨n, Nat.lt_succ_self n, rfl⟩, rfl⟩
  · obtain ⟨⟨i, hi, heq⟩, hbucket⟩ := h.members e (List.kerase_sublist _ _ |>.subset he)
    exact ⟨⟨i, Nat.lt_succ_of_lt hi, heq⟩, hbucket⟩

/-- One more that read the clock before all of them finds nobody to displace. -/
theorem Crowd.stampede (h : Crowd maxTrackedPeers state) :
    ¬ l.SparesNewcomer (crowdPeer maxTrackedPeers) 0 state.peers := by
  intro hspares
  rw [AdminAuthRateLimiter.SparesNewcomer, h.living_eq (Nat.zero_le 1)] at hspares
  obtain ⟨peer, bucket, -, hearlier⟩ := hspares h.absent (Nat.le_of_eq h.size.symm)
  exact Nat.not_lt_zero _ hearlier

/-- A crowd of any size up to the bound can come. -/
theorem crowd_of_run (hfits : l.span ≤ maxDuration) (n : ℕ) (hn : n ≤ maxTrackedPeers) :
    ∃ as log, (adminLimiter l).Run System.anyStep (.start noPeers) as log ∧ Crowd n log.state := by
  induction n with
  | zero => exact ⟨[], _, .refl _, rfl, rfl, by simp [Log.start, noPeers]⟩
  | succ n ih =>
    obtain ⟨as, log, hrun, hcrowd⟩ := ih (Nat.le_of_succ_le hn)
    exact ⟨as ++ [.call (crowdCheck n 1)], l.service.answer (crowdCheck n 1) log,
      hrun.trans (.single trivial rfl),
      hcrowd.next hfits hn⟩

/-- **The limiter disables itself** where a crowd is followed by one that read the clock before. -/
theorem not_neverDisablesItself (hfits : l.span ≤ maxDuration) : ¬ NeverDisablesItself l := by
  intro hnever
  obtain ⟨as, log, hrun, hcrowd⟩ := crowd_of_run hfits maxTrackedPeers (Nat.le_refl _)
  have hsound := hnever (as ++ [.call (crowdCheck maxTrackedPeers 0)])
    (l.service.answer (crowdCheck maxTrackedPeers 0) log) (hrun.trans (.single trivial rfl))
  have hpanic := @AdminAuthRateLimiter.callAt_none l hfits (crowdCheck maxTrackedPeers 0) log.state
    hcrowd.sound hcrowd.stampede
  exact nomatch (congrArg (fun done => done.2.poisoned) hpanic).symm.trans hsound.sound

theorem guess_limiter_disables_itself : ¬ NeverDisablesItself (guessLimiter 5 (by decide)) :=
  not_neverDisablesItself (by decide)


end OidcExchange
