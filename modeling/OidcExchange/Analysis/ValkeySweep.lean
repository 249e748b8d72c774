import OidcExchange.Analysis.ValkeyIndex

/-!
# Revocation on Valkey

A revocation reads the members of an index set, deletes their keys one after another or
at once and drops the set. A rotation or a store that lands between the reading and the
end moves a session to a hash the revocation never saw, or loses its place in the index.
In a run without one, a revocation that has returned leaves no session of its set but
those stored since it began, and every live session is indexed.
-/

set_option autoImplicit false

namespace OidcExchange

namespace Valkey

open Interleaving Storage

/-! ## The discipline of the adapter -/

/-- A command that is ready at any time. -/
def Command.Quiet : Command → Prop
  | .hset _ => False
  | .srem _ _ => False
  | .del _ => False
  | .smembers _ => False
  | _ => True

/-- The call has dropped no index set. -/
def NoDrop (past : List (Performed Ans)) : Prop :=
  ∀ k ans, k.IsIndex → ⟨.del [k], ans⟩ ∉ past

/-- The call has gone on from `base` and has dropped no index set since. -/
structure Goes (base past : List (Performed Ans)) : Prop where
  suffix : base <:+ past
  noDrop : NoDrop base → NoDrop past

/-- The call has gone on from `base`, and its result is as stated. -/
def Then {α : Type} (base : List (Performed Ans)) (P : List (Performed Ans) → α → Prop)
    (past : List (Performed Ans)) (r : Except (Fault Error) α) : Prop :=
  Goes base past ∧ ∀ a, r = .ok a → P past a

/-- A call that returns from a revocation has deleted every session its index named. -/
def RevocationOutcome {α : Type} (request : Request) (past : List (Performed Ans)) :
    Except (Fault Error) α → Prop
  | .ok _ => ∀ k, request.index? = some k →
      ∃ ids, ⟨.smembers k, .ok ids⟩ ∈ past ∧ ∀ h ∈ ids, Deleted past h
  | .error _ => True

section Discipline

variable {α β : Type} {request : Request} {base past : List (Performed Ans)} {h : String}
  {P : List (Performed Ans) → α → Prop} {post : List (Performed Ans) → Except (Fault Error) β → Prop}

theorem ready_of_quiet {o : Command} (hq : o.Quiet) : Ready request past o := by
  cases o <;> trivial

theorem Deleted.suffix {past' : List (Performed Ans)} (hd : Deleted past h)
    (hsuffix : past <:+ past') : Deleted past' h := by
  obtain ⟨keys, n, hmem, hk⟩ := hd
  exact ⟨keys, n, hsuffix.subset hmem, hk⟩

theorem Goes.refl (past : List (Performed Ans)) : Goes past past := ⟨List.suffix_rfl, id⟩

theorem Goes.trans {past' : List (Performed Ans)} (h₁ : Goes base past) (h₂ : Goes past past') :
    Goes base past' :=
  ⟨h₁.suffix.trans h₂.suffix, fun hn => h₂.noDrop (h₁.noDrop hn)⟩

theorem Goes.cons {o : Command} (ans : Ans o) (hno : ∀ k, k.IsIndex → o ≠ .del [k]) :
    Goes past (⟨o, ans⟩ :: past) := by
  refine ⟨List.suffix_cons .., fun hn k ans' hk hmem => ?_⟩
  rcases List.mem_cons.mp hmem with heq | hmem
  · exact hno k hk (Sigma.mk.inj heq).1.symm
  · exact hn k ans' hk hmem

/-- The rule for going on after a part of a call. -/
theorem obeys_then {p : Adapter Ans α} {f : α → Adapter Ans β}
    (hp : p.Obeys (Ready request) (Then base P) base)
    (hok : ∀ past' a, Goes base past' → P past' a → (f a).Obeys (Ready request) post past')
    (herror : ∀ past' e, Goes base past' → post past' (.error e)) :
    (p >>= f).Obeys (Ready request) post base :=
  hp.bind (fun past' a h => hok past' a h.1 (h.2 a rfl)) fun past' e h => herror past' e h.1

/-- A command that drops no index set is performed when it is ready. -/
theorem obeys_command (o : Command) (ans : Ans o → Answer α) (hready : Ready request base o)
    (hno : ∀ k, k.IsIndex → o ≠ .del [k])
    (hP : ∀ r a, ans r = .ok a → P (⟨o, r⟩ :: base) a) :
    (Program.perform o fun r => Program.ofExcept (ans r) : Adapter Ans α).Obeys (Ready request)
      (Then base P) base := by
  refine ⟨hready, fun r => ?_⟩
  rw [Program.obeys_ofExcept]
  exact ⟨.cons r hno, fun a ha => hP r a ha⟩

/-- A quiet part may take place at any time and drops nothing. -/
theorem obeys_quiet {p : Adapter Ans α} (hp : p.Only Command.Quiet) :
    p.Obeys (Ready request) (Then base fun _ _ => True) base := by
  refine (hp.obeys fun _ _ => ready_of_quiet).mono fun past' r ⟨more, hmore, hall⟩ => ?_
  refine ⟨⟨⟨more, hmore.symm⟩, ?_⟩, fun _ _ => trivial⟩
  subst hmore
  intro hn k ans hk hmem
  rcases List.mem_append.mp hmem with hmem | hmem
  · exact hall _ hmem
  · exact hn k ans hk hmem

/-- Deleting sessions or records. -/
theorem del_obeys {keys : List Key} (hkeys : ∀ k ∈ keys, ¬ k.IsIndex) :
    (del keys).Obeys (Ready request) (Then base fun past n => ⟨.del keys, .ok n⟩ ∈ past)
      base := by
  refine obeys_command (.del keys) id (fun k hk hindex => absurd hindex (hkeys k hk)) ?_ ?_
  · rintro k hk heq
    obtain rfl : keys = [k] := by simpa using heq
    exact hkeys k (List.mem_singleton_self k) hk
  · rintro r n rfl
    exact List.mem_cons_self ..

theorem smembers_obeys {k : Key} (hk : k.IsIndex) (hn : NoDrop base) :
    (smembers k).Obeys (Ready request) (Then base fun past ids => ⟨.smembers k, .ok ids⟩ ∈ past)
      base := by
  refine obeys_command (.smembers k) id (fun ans => hn k ans hk) (by simp) ?_
  rintro r ids rfl
  exact List.mem_cons_self ..

theorem srem_obeys {k : Key} (hready : Ready request base (.srem k h)) :
    (srem k h).Obeys (Ready request) (Then base fun _ _ => True) base :=
  obeys_command (.srem k h) id hready (by simp) fun _ _ _ => trivial

theorem unindexOwner_obeys (owner : Option String) (hd : Deleted base h) :
    (unindexOwner owner h).Obeys (Ready request) (Then base fun _ _ => True) base := by
  cases owner with
  | none => exact ⟨.refl base, fun _ _ => trivial⟩
  | some u => exact srem_obeys (.inl hd)

theorem hgetUserId_obeys :
    (hgetUserId h).Obeys (Ready request) (Then base fun _ _ => True) base :=
  obeys_quiet (Adapter.await_only ⟨trivial, fun _ => trivial⟩)

theorem revokeMember_obeys (familyId : String) :
    (revokeMember familyId h).Obeys (Ready request) (Then base fun past _ => Deleted past h)
      base := by
  refine obeys_then hgetUserId_obeys (fun past₁ owner g₁ _ => ?_) fun _ _ g₁ => ⟨g₁, by simp⟩
  refine obeys_then (del_obeys (by simp [Key.IsIndex])) (fun past₂ n g₂ hdel => ?_)
    fun _ _ g₂ => ⟨g₁.trans g₂, by simp⟩
  have hdeleted : Deleted past₂ h := ⟨_, n, hdel, List.mem_singleton_self _⟩
  have g := g₁.trans g₂
  by_cases hone : n = 1
  · rw [if_pos hone]
    refine obeys_then (unindexOwner_obeys owner hdeleted) (fun past₃ _ g₃ _ => ?_)
      fun _ _ g₃ => ⟨g.trans g₃, by simp⟩
    refine obeys_then (srem_obeys (.inl (hdeleted.suffix g₃.suffix))) (fun past₄ _ g₄ _ => ?_)
      fun _ _ g₄ => ⟨g.trans (g₃.trans g₄), by simp⟩
    exact ⟨g.trans (g₃.trans g₄), fun _ _ => hdeleted.suffix (g₃.trans g₄).suffix⟩
  · rw [if_neg hone]
    refine obeys_then (del_obeys (by simp [Key.IsIndex])) (fun past₃ _ g₃ _ => ?_)
      fun _ _ g₃ => ⟨g.trans g₃, by simp⟩
    refine obeys_then (srem_obeys (.inl (hdeleted.suffix g₃.suffix))) (fun past₄ _ g₄ _ => ?_)
      fun _ _ g₄ => ⟨g.trans (g₃.trans g₄), by simp⟩
    exact ⟨g.trans (g₃.trans g₄), fun _ _ => hdeleted.suffix (g₃.trans g₄).suffix⟩

theorem revokeMembers_obeys (familyId : String) (hs : List String) (counts : ℕ × ℕ) :
    (revokeMembers familyId hs counts).Obeys (Ready request)
      (Then base fun past _ => ∀ h ∈ hs, Deleted past h) base := by
  induction hs generalizing base counts with
  | nil => exact ⟨.refl base, by simp⟩
  | cons h hs ih =>
    refine obeys_then (revokeMember_obeys familyId) (fun past₁ rl g₁ hdeleted => ?_)
      fun _ _ g₁ => ⟨g₁, by simp⟩
    refine (ih _).mono fun past₂ r ⟨g₂, hrest⟩ => ⟨g₁.trans g₂, fun a ha h' hh' => ?_⟩
    rcases List.mem_cons.mp hh' with rfl | hh'
    · exact hdeleted.suffix g₂.suffix
    · exact hrest a ha h' hh'

theorem delSessions_obeys (hs : List String) : (delSessions hs).Obeys (Ready request)
    (Then base fun past _ => ∀ h ∈ hs, Deleted past h) base := by
  cases hs with
  | nil => exact ⟨.refl base, by simp⟩
  | cons h hs =>
    refine (del_obeys (by simp [Key.IsIndex])).mono fun past r ⟨g, hdel⟩ =>
      ⟨g, fun n hn h' hh' => ?_⟩
    exact ⟨_, n, hdel n hn, List.mem_map_of_mem hh'⟩

theorem decrCounterClamped_only (n : ℕ) : (decrCounterClamped n).Only Command.Quiet := by
  refine Program.Only.bind (Adapter.await_only ⟨trivial, fun _ => trivial⟩) fun _ => ?_
  exact Adapter.when_only (Adapter.await_only ⟨trivial, fun _ => trivial⟩)

theorem sweepRecord_obeys (userId : String) : (sweepRecord userId h).Obeys (Ready request)
    (Then base fun _ _ => True) base := by
  have hread : (hgetallRetired h).Obeys (Ready request) (Then base fun past r =>
      ⟨.hgetallRetired h, .ok r⟩ ∈ past) base := by
    refine obeys_command (.hgetallRetired h) id trivial (by simp) ?_
    rintro r a rfl
    exact List.mem_cons_self ..
  refine obeys_then hread (fun past₁ r g₁ hr => ?_) fun _ _ g₁ => ⟨g₁, by simp⟩
  cases r with
  | none => exact ⟨g₁, fun _ _ => trivial⟩
  | some record =>
    refine Adapter.obeys_when (fun _ => ?_) fun _ => ⟨g₁, fun _ _ => trivial⟩
    refine obeys_then (del_obeys (by simp [Key.IsIndex])) (fun past₂ n g₂ _ => ?_)
      fun _ _ g₂ => ⟨g₁.trans g₂, by simp⟩
    refine Adapter.obeys_when (fun _ => ?_) fun _ => ⟨g₁.trans g₂, fun _ _ => trivial⟩
    refine (srem_obeys (.inr ⟨record, g₂.suffix.subset hr⟩)).mono fun past₃ r ⟨g₃, h₃⟩ =>
      ⟨(g₁.trans g₂).trans g₃, h₃⟩

theorem sweepRecords_obeys (userId : String) (hs : List String) :
    (sweepRecords userId hs).Obeys (Ready request) (Then base fun _ _ => True) base := by
  induction hs generalizing base with
  | nil => exact ⟨.refl base, fun _ _ => trivial⟩
  | cons h hs ih =>
    refine obeys_then (sweepRecord_obeys userId) (fun past₁ _ g₁ _ => ?_)
      fun _ _ g₁ => ⟨g₁, by simp⟩
    exact ih.mono fun past₂ r ⟨g₂, h₂⟩ => ⟨g₁.trans g₂, h₂⟩

theorem outcome_of_none {past : List (Performed Ans)} (hno : request.index? = none)
    (r : Except (Fault Error) α) : RevocationOutcome request past r := by
  cases r <;> simp [RevocationOutcome, hno]

theorem await_quiet {o : Command} {g : Ans o → Answer α} (hq : o.Quiet) :
    (Adapter.await (.perform o fun r => .done (g r)) : Adapter Ans α).Only Command.Quiet :=
  Adapter.await_only ⟨hq, fun _ => trivial⟩

theorem indexUnder_only (k : Key) (ttl : ℕ) : (indexUnder k h ttl).Only Command.Quiet := by
  refine Program.Only.bind (await_quiet (o := .sadd k h) (g := id) trivial) fun _ => ?_
  refine Program.Only.bind (await_quiet (o := .expireNX k ttl) (g := id) trivial) fun _ => ?_
  exact await_quiet (o := .expireGT k ttl) (g := id) trivial

theorem storeRefreshToken_obeys (s : Session) : (storeRefreshToken s).Obeys
    (Ready (.store s)) (RevocationOutcome (.store s)) [] := by
  refine ⟨trivial, fun now => ?_⟩
  change (if numSeconds now s.expiresAt < sessionTtlSecondsMin then _ else _ :
    Adapter Ans Unit).Obeys _ _ _
  split
  · trivial
  · refine Adapter.obeys_assert (fun _ => ?_) fun _ => trivial
    have hhset : (hset s).Obeys (Ready (.store s)) (Then [⟨.now, now⟩] fun _ _ => True)
        [⟨.now, now⟩] :=
      obeys_command (.hset s) id ⟨rfl, by simp⟩ (by simp) fun _ _ _ => trivial
    refine obeys_then hhset (fun past₁ _ _ _ => ?_) fun _ _ _ => trivial
    refine (obeys_quiet ?_).mono fun _ r _ => outcome_of_none rfl r
    refine Program.Only.bind (await_quiet (o := .expire _ _) (g := id) trivial) fun _ => ?_
    refine (indexUnder_only _ _).bind fun _ => ?_
    refine Program.Only.bind (await_quiet (o := .incr) (g := id) trivial) fun _ => ?_
    exact Adapter.when_only (indexUnder_only _ _)

theorem rotateRefreshToken_only (secs : UInt64) (r : Session) :
    (rotateRefreshToken secs h r).Only Command.Quiet := by
  refine (Adapter.assert_only _).bind fun _ => (Adapter.assert_only _).bind fun _ => ?_
  refine Program.Only.bind ((Program.only_ask Command.now).mpr trivial) fun start => ?_
  dsimp only
  split
  · trivial
  · refine Program.Only.bind ((Program.only_ask Command.now).mpr trivial) fun now => ?_
    split
    · trivial
    · refine Program.Only.bind (await_quiet (o := .eval _) (g := id) trivial) fun outcome => ?_
      cases outcome <;> trivial

theorem revokeSession_obeys : (revokeSession h).Obeys (Ready (.revokeSession h))
    (RevocationOutcome (.revokeSession h)) [] := by
  refine obeys_then hgetUserId_obeys (fun past₁ owner _ _ => ?_) fun _ _ _ => trivial
  refine obeys_then (del_obeys (by simp [Key.IsIndex])) (fun past₂ n _ hdel => ?_)
    fun _ _ _ => trivial
  refine obeys_then (obeys_quiet (Adapter.when_only (decrCounterClamped_only 1)))
    (fun past₃ _ g₃ _ => ?_) fun _ _ _ => trivial
  have hdeleted : Deleted past₃ h :=
    ⟨_, n, g₃.suffix.subset hdel, List.mem_singleton_self _⟩
  exact (unindexOwner_obeys owner hdeleted).mono fun _ r _ => outcome_of_none rfl r

/-- Dropping the index set at the end of a revocation. -/
theorem drop_ready {k : Key} {ids : List String} {past : List (Performed Ans)}
    (hrequest : request.index? = some k) (hn : NoDrop past) (hk : k.IsIndex)
    (htaken : ⟨.smembers k, .ok ids⟩ ∈ past) (hdeleted : ∀ h ∈ ids, Deleted past h) :
    Ready request past (.del [k]) := by
  intro k' hk' _
  obtain rfl := List.mem_singleton.mp hk'
  exact ⟨rfl, hrequest, fun ans => hn _ ans hk, ids, htaken, hdeleted⟩

theorem drop_obeys {k : Key} (hready : Ready request base (.del [k])) :
    (del [k]).Obeys (Ready request) (fun past _ => base <:+ past) base := by
  refine ⟨hready, ?_⟩
  rintro (e | n) <;> exact List.suffix_cons ..

theorem revokeFamily_obeys (f : String) : (revokeFamily f).Obeys (Ready (.revokeFamily f))
    (RevocationOutcome (.revokeFamily f)) [] := by
  refine Adapter.obeys_assert (fun _ => ?_) fun _ => trivial
  have hnil : NoDrop [] := by simp [NoDrop]
  refine obeys_then (smembers_obeys trivial hnil) (fun past₀ ids g₀ htaken₀ => ?_)
    fun _ _ _ => trivial
  have hn : NoDrop past₀ := g₀.noDrop hnil
  refine obeys_then (revokeMembers_obeys f ids (0, 0)) (fun past₁ counts g₁ hdeleted => ?_)
    fun _ _ _ => trivial
  refine obeys_then (obeys_quiet (Adapter.when_only (decrCounterClamped_only _)))
    (fun past₂ _ g₂ _ => ?_) fun _ _ _ => trivial
  refine obeys_then (obeys_quiet (await_quiet (o := .scard _) (g := id) trivial))
    (fun past₃ remaining g₃ _ => ?_) fun _ _ _ => trivial
  have g := g₁.trans (g₂.trans g₃)
  have htaken : (⟨.smembers (.family f), .ok ids⟩ : Performed Ans) ∈ past₃ :=
    g.suffix.subset htaken₀
  have hdeleted₃ : ∀ h ∈ ids, Deleted past₃ h := fun h hh =>
    (hdeleted h hh).suffix (g₂.trans g₃).suffix
  have houtcome : ∀ past : List (Performed Ans), past₃ <:+ past → ∀ r : Except (Fault Error) ℕ,
      RevocationOutcome (.revokeFamily f) past r := by
    intro past hsuffix r
    cases r with
    | error e => trivial
    | ok n =>
      intro k hk
      obtain rfl := Option.some.inj hk
      exact ⟨ids, hsuffix.subset htaken, fun h hh => (hdeleted₃ h hh).suffix hsuffix⟩
  have hready : Ready (.revokeFamily f) past₃ (.del [.family f]) :=
    drop_ready rfl (g.noDrop hn) trivial htaken hdeleted₃
  have hdrop : (Adapter.when (remaining == 0) do let _ ← del [.family f]).Obeys
      (Ready (.revokeFamily f)) (fun past _ => past₃ <:+ past) past₃ :=
    Adapter.obeys_when (fun _ => (drop_obeys hready).bind (fun _ _ hsuffix => hsuffix)
      fun _ _ hsuffix => hsuffix) fun _ => List.suffix_rfl
  exact hdrop.bind (fun past _ hsuffix => houtcome past hsuffix _)
    fun past _ hsuffix => houtcome past hsuffix _

theorem revokeAllUserSessions_obeys (u : String) : (revokeAllUserSessions u).Obeys
    (Ready (.revokeAllUserSessions u)) (RevocationOutcome (.revokeAllUserSessions u)) [] := by
  have hnil : NoDrop [] := by simp [NoDrop]
  refine obeys_then (smembers_obeys trivial hnil) (fun past₀ ids g₀ htaken₀ => ?_)
    fun _ _ _ => trivial
  have hn : NoDrop past₀ := g₀.noDrop hnil
  refine obeys_then (delSessions_obeys ids) (fun past₁ deleted g₁ hdeleted => ?_)
    fun _ _ _ => trivial
  refine Adapter.obeys_assert (fun _ => ?_) fun _ => trivial
  refine obeys_then (obeys_quiet (Adapter.when_only (decrCounterClamped_only _)))
    (fun past₂ _ g₂ _ => ?_) fun _ _ _ => trivial
  have htaken : (⟨.smembers (.userSessions u), .ok ids⟩ : Performed Ans) ∈ past₂ :=
    (g₁.trans g₂).suffix.subset htaken₀
  have hdeleted₂ : ∀ h ∈ ids, Deleted past₂ h := fun h hh => (hdeleted h hh).suffix g₂.suffix
  refine (drop_obeys (drop_ready (k := .userSessions u) rfl ((g₁.trans g₂).noDrop hn) trivial
    htaken hdeleted₂)).bind
    (fun past₂' _ hdropped => ?_) fun _ _ _ => trivial
  refine obeys_then (obeys_quiet (await_quiet (o := .scanRetired) (g := id) trivial))
    (fun past₃ retired g₃ _ => ?_) fun _ _ _ => trivial
  refine obeys_then (sweepRecords_obeys u retired) (fun past₄ _ g₄ _ => ?_) fun _ _ _ => trivial
  have hsuffix : past₂ <:+ past₄ := hdropped.trans (g₃.trans g₄).suffix
  intro k hk
  obtain rfl := Option.some.inj hk
  exact ⟨ids, hsuffix.subset htaken, fun h hh => (hdeleted₂ h hh).suffix hsuffix⟩

/-- Every call obeys. -/
theorem serve_obeys (secs : UInt64) (request : Request) :
    (serve secs request).Obeys (Ready request) (RevocationOutcome request) [] := by
  cases request with
  | store s =>
    exact (storeRefreshToken_obeys s).bind (fun _ _ h => outcome_of_none rfl _) fun _ _ _ => trivial
  | rotate h r =>
    refine Program.Obeys.bind (obeys_quiet (rotateRefreshToken_only secs r))
      (fun _ _ _ => outcome_of_none rfl _) fun _ _ _ => trivial
  | revokeSession h =>
    exact revokeSession_obeys.bind (fun _ _ _ => outcome_of_none rfl _) fun _ _ _ => trivial
  | revokeFamily f =>
    exact (revokeFamily_obeys f).bind (fun _ _ h => h) fun _ _ _ => trivial
  | revokeAllUserSessions u =>
    exact (revokeAllUserSessions_obeys u).bind (fun _ _ h => h) fun _ _ _ => trivial

end Discipline

/-! ## Runs -/

variable {m m' : StoreMoment}

/-- The index does not depend on which calls have begun or ended. -/
theorem Indexed.of_performed (hi : Indexed m) (hsessions : m'.world.sessions = m.world.sessions)
    (hretired : m'.world.retired = m.world.retired) (hsets : m'.world.sets = m.world.sets)
    (hperformed : ∀ (c : ℕ) (o : Command) (ans : Ans o),
      .performed c o ans ∈ m'.history ↔ .performed c o ans ∈ m.history)
    (hsweeping : ∀ c k ids, Sweeping m' c k ids → Sweeping m c k ids) : Indexed m' := by
  have hnamed : ∀ {h}, Named m h → Named m' h := by
    rintro h ⟨c, o, ans, hmem, hnames⟩
    exact ⟨c, o, ans, (hperformed c o ans).mpr hmem, hnames⟩
  constructor
  · intro h s hs
    obtain ⟨hhash, hn⟩ := hi.keyed h s (hsessions ▸ hs)
    exact ⟨hhash, hnamed hn⟩
  · intro c keys n h hmem hk
    rw [hsessions]
    exact hi.deleted c keys n h ((hperformed ..).mp hmem) hk
  · intro h r hr
    rw [hretired] at hr
    obtain ⟨hn, hnone⟩ := hi.retired h r hr
    exact ⟨hnamed hn, by rw [hsessions]; exact hnone⟩
  · intro c h r hmem
    rw [hsessions]
    exact hi.read c h r ((hperformed ..).mp hmem)
  · intro h s k hs hk
    rw [hsets]
    refine (hi.index h s k (hsessions ▸ hs) hk).imp id ?_
    rintro ⟨c, ans, hmem, hnot⟩
    exact ⟨c, ans, (hperformed ..).mpr hmem, fun hadded => hnot ((hperformed ..).mp hadded)⟩
  · intro c k ids h s hs hnot hlive hk
    refine hi.swept c k ids h s (hsweeping c k ids hs) ?_ (hsessions ▸ hlive) hk
    rintro ⟨ans, hmem⟩
    exact hnot ⟨ans, (hperformed ..).mpr hmem⟩

theorem Sweeping.of_begin {c d : ℕ} {k : Key} {ids : List String} {request : Request}
    (hunseen : m.Unseen c) (hs : Sweeping (m.begin c request) d k ids) : Sweeping m d k ids := by
  have htaken : .performed d (.smembers k) (.ok ids) ∈ m.history := by simpa using hs.taken
  obtain ⟨asked, hbegan, hindex⟩ := hs.asked
  refine ⟨⟨asked, ?_, hindex⟩, htaken, by simpa using hs.open_⟩
  rcases List.mem_cons.mp hbegan with heq | hbegan
  · cases heq
    exact absurd rfl (hunseen _ htaken)
  · exact hbegan

theorem Sweeping.of_ended {c d : ℕ} {k : Key} {ids : List String}
    (hs : Sweeping (m.ended c) d k ids) : Sweeping m d k ids := by
  obtain ⟨asked, hbegan, hindex⟩ := hs.asked
  exact ⟨⟨asked, by simpa using hbegan, hindex⟩, by simpa using hs.taken,
    fun hmem => hs.open_ (List.mem_cons_of_mem _ hmem)⟩

theorem data_of_drift {t : Drift} {ks ks' : Keyspace} (h : semantics.drift t ks = some ks') :
    ks'.sessions = ks.sessions ∧ ks'.retired = ks.retired ∧ ks'.sets = ks.sets := by
  cases t with
  | tick clock =>
    simp only [semantics, drift] at h
    split at h
    · rw [← Option.some.inj h]
      exact ⟨rfl, rfl, rfl⟩
    · exact absurd h (by simp)

/-- The index, kept by every command that lets nothing slip. -/
def indexProtocol : Protocol semantics Ready where
  inv := Indexed
  allowed := NoneSlips
  begins h hunseen := h.of_performed rfl rfl rfl (by simp) fun _ _ _ hs => hs.of_begin hunseen
  performs h hrunning hready hmeets hex := h.performs hrunning hready hmeets hex
  ends h _ := h.of_performed rfl rfl rfl (by simp) fun _ _ _ hs => hs.of_ended
  drifts h hdrift := by
    obtain ⟨hsessions, hretired, hsets⟩ := data_of_drift hdrift
    exact h.of_performed hsessions hretired hsets (by simp)
      fun _ _ _ hs => ⟨hs.asked, hs.taken, hs.open_⟩

theorem indexed_start (clock : Instant) : Indexed (StorePool.start clock).toMoment := by
  constructor <;> simp [StorePool.start, Pool.initial, Keyspace.empty, Sets.members]

/-- What holds of one revocation, call `c` working through `k`, beside the calls `old` that
were there when it began. -/
structure Revoking (old : ℕ → Prop) (c : ℕ) (k : Key) (m : StoreMoment) : Prop where
  /-- An old call has appeared. -/
  seen : ∀ d, old d → ∃ e ∈ m.history, e.call = d
  /-- Once the members are read, every old store of a session of the set has ended. -/
  settled : ∀ ids d s, Sweeping m c k ids → old d → .began d (.store s) ∈ m.history →
    k ∈ indexes s → .ended d ∈ m.history
  /-- Once the set is dropped, a live session of it has been stored by a new call. -/
  stored : ∀ ids h s, Sweeping m c k ids → Dropped m c k → m.world.sessions.lookup h = some s →
    k ∈ indexes s → ∃ d, ∃ ans : Answer Unit, ¬ old d ∧ .performed d (.hset s) ans ∈ m.history

section Revoking

variable {old : ℕ → Prop} {c d : ℕ} {k : Key} {x : Choice} {o : Command} {ans : Ans o}
  {w : Keyspace}

/-- Every command that lets nothing slip keeps what holds of the revocation. -/
theorem Revoking.performs (hi : Indexed m) (hr : Revoking old c k m) {request : Request}
    (hrunning : m.Running d request) (hready : Ready request (m.past d) o)
    (hmeets : NoneSlips m d x o) (hex : exec x d o m.world = some (ans, w)) :
    Revoking old c k (m.performed d o ans w) := by
  have hp := hi.purge hmeets.kept
  have hstep := keyStep_of_exec hex
  have hbefore : ∀ {ids}, Sweeping (m.performed d o ans w) c k ids →
      .performed c (.smembers k) (.ok ids) ∈ m.history → Sweeping m c k ids := by
    rintro ids ⟨⟨asked, hbegan, hindex⟩, -, hopen⟩ htaken
    exact ⟨⟨asked, by simpa using hbegan, hindex⟩, htaken, by simpa using hopen⟩
  constructor
  · intro e he
    obtain ⟨event, hmem, hcall⟩ := hr.seen e he
    exact ⟨event, List.mem_cons_of_mem _ hmem, hcall⟩
  · intro ids e s hsweeping hold hafter hk
    have hbegan : .began e (.store s) ∈ m.history := by simpa using hafter
    apply List.mem_cons_of_mem
    rcases List.mem_cons.mp hsweeping.taken with heq | htaken
    · cases heq
      by_contra hopen
      exact (hmeets.settled k s rfl hk).1 ⟨e, hbegan, hopen⟩
    · exact hr.settled ids e s (hbefore hsweeping htaken) hold hbegan hk
  · rintro ids h s hsweeping ⟨ans', hdropped⟩ hs hk
    have hlive : ∀ {t}, m.world.purge.sessions.lookup h = some t →
        m.world.sessions.lookup h = some t := fun ht =>
      (Table.lookup_deleteWhere_eq_some.mp ht).1
    rcases List.mem_cons.mp hsweeping.taken with heq | htaken
    · -- the members are read before the set is dropped
      cases heq
      rcases List.mem_cons.mp hdropped with heq | hdropped
      · cases heq
      · exact absurd ((Moment.mem_past ..).mpr hdropped) (hready ans')
    have hopen := hbefore hsweeping htaken
    rcases List.mem_cons.mp hdropped with heq | hdropped
    · -- no session of the set is live when it is dropped
      cases heq
      obtain hold | ⟨ho, -⟩ | ⟨a, live, ho, -⟩ := hstep.lookup hs
      · exact absurd hold (hp.dropping ⟨hrunning.asked, hrunning.open_⟩ hready
          (List.mem_singleton_self k) hk)
      · exact absurd ho (by simp)
      · exact absurd ho (by simp)
    · obtain hold | ⟨rfl, rfl⟩ | ⟨a, live, rfl, rfl, hswapped, -⟩ := hstep.lookup hs
      · obtain ⟨e, ans'', hnew, hmem⟩ :=
          hr.stored ids h s hopen ⟨ans', hdropped⟩ (hlive hold) hk
        exact ⟨e, ans'', hnew, List.mem_cons_of_mem _ hmem⟩
      · refine ⟨d, ans, fun hold => ?_, List.mem_cons_self ..⟩
        have hbegan := (hrunning.asked _).mpr hready.1.symm
        exact hrunning.open_ (hr.settled ids d s hopen hold hbegan hk)
      · exact absurd hk (hmeets.rotates c k ids a live hopen rfl hswapped)

/-- One revocation among the others. -/
def revocationProtocol (old : ℕ → Prop) (c : ℕ) (k : Key) : Protocol semantics Ready where
  inv m := Indexed m ∧ Revoking old c k m
  allowed := NoneSlips
  begins := fun {m d i} h hunseen => by
    refine ⟨indexProtocol.begins h.1 hunseen, ?_, ?_, ?_⟩
    · intro e he
      obtain ⟨event, hmem, hcall⟩ := h.2.seen e he
      exact ⟨event, List.mem_cons_of_mem _ hmem, hcall⟩
    · intro ids e s hs hold hbegan hk
      rcases List.mem_cons.mp hbegan with heq | hbegan
      · cases heq
        obtain ⟨event, hmem, hcall⟩ := h.2.seen d hold
        exact absurd hcall (hunseen event hmem)
      · exact List.mem_cons_of_mem _
          (h.2.settled ids e s (hs.of_begin hunseen) hold hbegan hk)
    · rintro ids h' s hs ⟨ans, hdropped⟩ hlive hk
      obtain ⟨e, ans', hnew, hmem⟩ := h.2.stored ids h' s (hs.of_begin hunseen)
        ⟨ans, by simpa using hdropped⟩ hlive hk
      exact ⟨e, ans', hnew, List.mem_cons_of_mem _ hmem⟩
  performs h hrunning hready hmeets hex :=
    ⟨h.1.performs hrunning hready hmeets hex, h.2.performs h.1 hrunning hready hmeets hex⟩
  ends := fun {m d i} h hrunning => by
    refine ⟨indexProtocol.ends h.1 hrunning, ?_, ?_, ?_⟩
    · intro e he
      obtain ⟨event, hmem, hcall⟩ := h.2.seen e he
      exact ⟨event, List.mem_cons_of_mem _ hmem, hcall⟩
    · intro ids e s hs hold hbegan hk
      exact List.mem_cons_of_mem _
        (h.2.settled ids e s hs.of_ended hold (by simpa using hbegan) hk)
    · rintro ids h' s hs ⟨ans, hdropped⟩ hlive hk
      obtain ⟨e, ans', hnew, hmem⟩ := h.2.stored ids h' s hs.of_ended
        ⟨ans, by simpa using hdropped⟩ hlive hk
      exact ⟨e, ans', hnew, List.mem_cons_of_mem _ hmem⟩
  drifts := fun {m t w} h hdrift => by
    refine ⟨indexProtocol.drifts h.1 hdrift, h.2.seen, ?_, ?_⟩
    · exact fun ids e s hs => h.2.settled ids e s ⟨hs.asked, hs.taken, hs.open_⟩
    · intro ids h' s hs hdropped hlive hk
      rw [Moment.drifted_world, (data_of_drift hdrift).1] at hlive
      exact h.2.stored ids h' s ⟨hs.asked, hs.taken, hs.open_⟩ hdropped hlive hk

end Revoking

/-- **A revocation that nothing slips past is complete**: when it returns, a live session of
its family or user has been stored by a call that began after it, and, when no store of
such a session is half-way, is named by both of its index sets. -/
theorem revocation_complete {secs : UInt64} {clock : Instant} {p₀ p q : StorePool}
    {as as' : List StoreAct} {c : ℕ} {x : Choice} {request : Request} {k : Key} {a : Response}
    (hrun : (store secs).Run (Pool.Under NoneSlips) (StorePool.start clock) as p₀)
    (hnew : p₀.calls c = none) (hrun' : (store secs).Run (Pool.Under NoneSlips) p₀ as' p)
    (hmeets : p.Under NoneSlips (.advance c x : StoreAct))
    (hstep : (store secs).step p (.advance c x) = some q) (hreturned : q.Returned c request a)
    (hk : request.index? = some k)
    (hsettled : ∀ h s, q.world.sessions.lookup h = some s → k ∈ indexes s →
      ∀ k' ∈ indexes s, ¬ Unindexed q.toMoment s k') :
    ∀ h s, q.world.sessions.lookup h = some s → k ∈ indexes s →
      (∃ d, ∃ ans : Answer Unit, p₀.calls d = none ∧
        .performed d (.hset s) ans ∈ q.history) ∧
      ∀ k' ∈ indexes s, h ∈ q.world.sets.members k' := by
  have hbody := serve_obeys secs
  have hdisciplined := (Disciplined.initial _).run hbody hrun
  have hindexed := indexProtocol.run hbody hrun (Disciplined.initial _) (indexed_start clock)
  -- when the revocation begins, it has read nothing
  have hunread : ∀ ids, ¬ Sweeping p₀.toMoment c k ids := fun ids hs =>
    hdisciplined.unseen c hnew _ hs.taken rfl
  let P := revocationProtocol (fun d => p₀.calls d ≠ none) c k
  have hbegun : P.inv p₀.toMoment := by
    refine ⟨hindexed, ?_, fun ids d s hs => absurd hs (hunread ids),
      fun ids h s hs => absurd hs (hunread ids)⟩
    intro d hd
    obtain ⟨call, hcall⟩ := Option.ne_none_iff_exists'.mp hd
    exact ⟨_, (hdisciplined.asked d call hcall call.request).mpr rfl, rfl⟩
  obtain ⟨m, hm, hrunning, hpost, hq⟩ := P.at_return hbody (hdisciplined.run hbody hrun')
    (P.run hbody hrun' hdisciplined hbegun) hmeets hstep hreturned
  obtain ⟨ids, htaken, hdeleted⟩ := hpost k hk
  have hsweeping : Sweeping m c k ids :=
    ⟨⟨request, (hrunning.asked request).mpr rfl, hk⟩, (Moment.mem_past ..).mp htaken,
      hrunning.open_⟩
  have hworld : q.world = m.world := by rw [hq, Moment.ended_world]
  have hhistory : q.history = .ended c :: m.history := by rw [hq, Moment.ended_history]
  intro h s hs hindexes
  have hlive : m.world.sessions.lookup h = some s := hworld ▸ hs
  constructor
  · by_cases hdropped : Dropped m c k
    · obtain ⟨d, ans, hd, hmem⟩ := hm.2.stored ids h s hsweeping hdropped hlive hindexes
      exact ⟨d, ans, not_not.mp hd, hhistory ▸ List.mem_cons_of_mem _ hmem⟩
    · -- the session is among those read, and all of them are deleted
      have hgone := hm.1.gone (c := c)
        (.inl (hdeleted h (hm.1.swept c k ids h s hsweeping hdropped hlive hindexes)))
      rw [hgone] at hlive
      exact absurd hlive (by simp)
  · intro k' hk'
    obtain hmem | ⟨d, ans, hmem, hnot⟩ := hm.1.index h s k' hlive hk'
    · exact hworld ▸ hmem
    · refine absurd ⟨d, ans, ?_, ?_⟩ (hsettled h s hs hindexes k' hk')
      · exact hhistory ▸ List.mem_cons_of_mem _ hmem
      · simpa [hhistory] using hnot

/-! ## Runs on a small store -/

namespace Sample

open Adapter.Sample

/-- A day of retention. -/
def retention : UInt64 := 86400

/-- The store before any call. -/
def start : StorePool := .start 0

/-- A call goes on with its next `n` commands. -/
def advance (c n : ℕ) : List StoreAct := List.replicate n (.advance c .proceed)

/-- Call `c` starts to store a first generation and performs `n` commands. -/
def storing (c : ℕ) (h : String) (n : ℕ) : List StoreAct :=
  .begin c (.store (generation h 0)) :: advance c n

/-- Call `c` starts to replace a first generation and performs `n` commands. -/
def rotating (c : ℕ) (old new : String) (n : ℕ) : List StoreAct :=
  .begin c (.rotate old (generation new 1)) :: advance c n

/-- Call `c` starts a revocation and performs `n` commands. -/
def revoking (c : ℕ) (request : Request) (n : ℕ) : List StoreAct :=
  .begin c request :: advance c n

/-- Call `c` has ended. -/
def closed (p : StorePool) (c : ℕ) : Bool :=
  p.history.any fun e => match e with
    | .ended d => d == c
    | _ => false

/-- Call `c` has dropped the index set. -/
def dropped (p : StorePool) (c : ℕ) (k : Key) : Bool :=
  p.history.any fun e => match e with
    | .performed d (.del keys) _ => d == c && keys == [k]
    | _ => false

/-- Call `c` has put the hash in the index set. -/
def added (p : StorePool) (c : ℕ) (k : Key) (h : String) : Bool :=
  p.history.any fun e => match e with
    | .performed d (.sadd k' h') (.ok _) => d == c && k' == k && h' == h
    | _ => false

/-- No command has named the hash. -/
def unnamed (p : StorePool) (h : String) : Bool :=
  p.history.all fun e => match e with
    | .performed _ o _ => !decide (o.names h)
    | _ => true

/-- Call `c` stores no session. -/
def storesNothing (p : StorePool) (c : ℕ) : Bool :=
  p.history.all fun e => match e with
    | .began d (.store _) => d != c
    | _ => true

/-- Every store has ended. -/
def storesClosed (p : StorePool) : Bool :=
  p.history.all fun e => match e with
    | .began d (.store _) => closed p d
    | _ => true

/-- Every session that a call has written is indexed by the call. -/
def indexed (p : StorePool) : Bool :=
  p.history.all fun e => match e with
    | .performed d (.hset s) _ => (indexes s).all fun k => added p d k s.refreshTokenHash
    | _ => true

/-- Every call that has read an index set has ended or passes the test. -/
def sweeps (p : StorePool) (test : ℕ → Key → Bool) : Bool :=
  p.history.all fun e => match e with
    | .performed r (.smembers k) _ => closed p r || test r k
    | _ => true

/-- The command lets nothing slip. -/
def quiet (p : StorePool) (c : ℕ) : Command → Bool
  | .now => true
  | .hset s => unnamed p s.refreshTokenHash && sweeps p (dropped p)
  | .eval a => unnamed p a.replacement.refreshTokenHash && sweeps p (fun _ _ => false) &&
      storesNothing p c
  | .smembers _ => storesClosed p && indexed p && storesNothing p c
  | _ => storesNothing p c || sweeps p (dropped p)

/-- No key expires, and the next command lets nothing slip. -/
def nothingSlips (p : StorePool) : StoreAct → Bool
  | .advance c _ =>
    (p.world.deadlines.entries.all fun e => decide (p.world.clock < e.2)) &&
      match p.calls c with
      | some ⟨_, .perform o _⟩ => quiet p c o
      | _ => true
  | _ => true

section Tests

variable {p : StorePool} {c : ℕ} {k : Key} {h : String} {s : Session}

theorem ended_of_closed (htest : closed p c = true) : .ended c ∈ p.history := by
  obtain ⟨e, he, hc⟩ := List.any_eq_true.mp htest
  split at hc
  · rename_i d
    obtain rfl : d = c := by simpa using hc
    exact he
  · exact absurd hc (by simp)

theorem dropped_of_test (htest : dropped p c k = true) : Dropped p.toMoment c k := by
  obtain ⟨e, he, hc⟩ := List.any_eq_true.mp htest
  split at hc
  · rename_i d keys ans
    obtain ⟨rfl, rfl⟩ : d = c ∧ keys = [k] := by simpa using hc
    exact ⟨ans, he⟩
  · exact absurd hc (by simp)

theorem sadd_of_added (htest : added p c k h = true) :
    .performed c (.sadd k h) (.ok ()) ∈ p.history := by
  obtain ⟨e, he, hc⟩ := List.any_eq_true.mp htest
  split at hc
  · rename_i d k' h' u
    obtain ⟨⟨rfl, rfl⟩, rfl⟩ : (d = c ∧ k' = k) ∧ h' = h := by simpa using hc
    exact he
  · exact absurd hc (by simp)

theorem not_named_of_test (htest : unnamed p h = true) : ¬ Named p.toMoment h := by
  rintro ⟨c, o, ans, hmem, hnames⟩
  have := List.all_eq_true.mp htest _ hmem
  simp [hnames] at this

theorem not_began_of_test (htest : storesNothing p c = true) :
    .began c (.store s) ∉ p.history := by
  intro hmem
  have := List.all_eq_true.mp htest _ hmem
  simp at this

theorem not_inFlight_of_test (htest : storesClosed p = true) : ¬ InFlight p.toMoment s := by
  rintro ⟨c, hbegan, hopen⟩
  exact hopen (ended_of_closed (List.all_eq_true.mp htest _ hbegan))

theorem not_unindexed_of_test (htest : indexed p = true) (hk : k ∈ indexes s) :
    ¬ Unindexed p.toMoment s k := by
  rintro ⟨c, ans, hmem, hnot⟩
  have hall := List.all_eq_true.mp (List.all_eq_true.mp htest _ hmem) k hk
  exact hnot (sadd_of_added hall)

theorem sweeping_of_test {test : ℕ → Key → Bool} {ids : List String}
    (htest : sweeps p test = true) (hs : Sweeping p.toMoment c k ids) : test c k = true := by
  have := List.all_eq_true.mp htest _ hs.taken
  rcases Bool.or_eq_true_iff.mp this with hclosed | hpasses
  · exact absurd (ended_of_closed hclosed) hs.open_
  · exact hpasses

theorem indexKept_of_test {ks : Keyspace}
    (htest : (ks.deadlines.entries.all fun e => decide (ks.clock < e.2)) = true) :
    IndexKept ks := by
  intro h s k hs hk hmem
  have hkeep : ks.expired k = false := by
    unfold Keyspace.expired
    cases hd : ks.deadlines.lookup k with
    | none => rfl
    | some t =>
      have hlater := List.all_eq_true.mp htest _ (AList.mem_lookup_iff.mp hd)
      have hlater : ks.clock < t := of_decide_eq_true hlater
      simpa using hlater
  unfold Sets.members at hmem ⊢
  cases hl : ks.sets.lookup k with
  | none => simp [hl] at hmem
  | some ids =>
    have hl' : ks.purge.sets.lookup k = some ids :=
      Table.lookup_deleteWhere_eq_some.mpr ⟨hl, hkeep⟩
    rw [hl'] 
    rwa [hl] at hmem

end Tests

theorem noneSlips_of_quiet {p : StorePool} {c : ℕ} {x : Choice} {o : Command}
    (hkept : IndexKept p.world) (hquiet : quiet p c o = true) : NoneSlips p.toMoment c x o := by
  constructor
  · rintro s (rfl | ⟨a, live, rfl, rfl, -⟩)
    · simp only [quiet, Bool.and_eq_true] at hquiet
      exact not_named_of_test hquiet.1
    · simp only [quiet, Bool.and_eq_true] at hquiet
      exact not_named_of_test hquiet.1.1
  · exact hkept
  · rintro k s rfl hk
    simp only [quiet, Bool.and_eq_true] at hquiet
    exact ⟨not_inFlight_of_test hquiet.1.1, fun _ => not_unindexed_of_test hquiet.1.2 hk⟩
  · rintro r k ids a live hs rfl -
    simp only [quiet, Bool.and_eq_true] at hquiet
    exact absurd (sweeping_of_test hquiet.1.2 hs) (by simp)
  · intro r k ids s hs hne hbegan hk
    have hcases : storesNothing p c = true ∨ sweeps p (dropped p) = true := by
      cases o with
      | now => exact absurd rfl hne
      | hset s => exact .inr (Bool.and_eq_true _ _ ▸ hquiet).2
      | eval a => exact .inl (Bool.and_eq_true _ _ ▸ hquiet).2
      | smembers k => exact .inl (Bool.and_eq_true _ _ ▸ hquiet).2
      | _ => exact Bool.or_eq_true_iff.mp hquiet
    rcases hcases with hnone | hsweeps
    · exact absurd hbegan (not_began_of_test hnone)
    · exact dropped_of_test (sweeping_of_test hsweeps hs)

theorem noneSlips_of_test {p : StorePool} {a : StoreAct} (htest : nothingSlips p a = true) :
    p.Under NoneSlips a := by
  rintro c x o ⟨rfl, i, next, hc⟩
  obtain ⟨hkept, hquiet⟩ := Bool.and_eq_true _ _ ▸ htest
  rw [hc] at hquiet
  exact noneSlips_of_quiet (indexKept_of_test hkept) hquiet

/-- Call `c` has returned from the revocation of the user's sessions. -/
def signedOut (c : ℕ) (p : StorePool) : Bool :=
  match p.calls c with
  | some ⟨.revokeAllUserSessions u, .done (.revoked _)⟩ => u == theUser
  | _ => false

theorem signedOut_of_test {c : ℕ} {p : StorePool} (h : signedOut c p = true) :
    ∃ count, p.Returned c (.revokeAllUserSessions theUser) (.revoked count) := by
  unfold signedOut at h
  split at h
  · rename_i u count hc
    obtain rfl : u = theUser := by simpa using h
    exact ⟨count, hc⟩
  · exact absurd h (by simp)

/-- Call `c` has returned from the revocation of the family. -/
def revoked (c : ℕ) (p : StorePool) : Bool :=
  match p.calls c with
  | some ⟨.revokeFamily f, .done (.revoked _)⟩ => f == theFamily
  | _ => false

theorem revoked_of_test {c : ℕ} {p : StorePool} (h : revoked c p = true) :
    ∃ count, p.Returned c (.revokeFamily theFamily) (.revoked count) := by
  unfold revoked at h
  split at h
  · rename_i f count hc
    obtain rfl : f = theFamily := by simpa using h
    exact ⟨count, hc⟩
  · exact absurd h (by simp)

/-- No call has stored the session. -/
def notStored (p : StorePool) (s : Session) : Bool :=
  p.history.all fun e => match e with
    | .performed _ (.hset t) _ => t != s
    | _ => true

/-- One session is stored and rotated before the revocation begins. -/
def before : List StoreAct := storing 0 "a" 10 ++ rotating 1 "a" "b" 3

/-- Another session is stored between the moment the revocation drops the index set and
its end. -/
def after : List StoreAct :=
  revoking 2 (.revokeAllUserSessions theUser) 4 ++ storing 3 "c" 10 ++ advance 2 3

/-- A rotation takes place after the revocation has read the members of the family. -/
def overtaken : List StoreAct := revoking 2 (.revokeFamily theFamily) 1 ++ advance 1 1 ++ advance 2 5

end Sample

open Sample Adapter.Sample in
/-- A revocation that one store follows leaves the session of that store, and it is indexed. -/
theorem revocation_complete_stored : ∃ as p₀ as' p q count,
    (store retention).Run (Pool.Under NoneSlips) start as p₀ ∧ p₀.calls 2 = none ∧
    (store retention).Run (Pool.Under NoneSlips) p₀ as' p ∧
    (store retention).step p (.advance 2 .proceed) = some q ∧
    q.Returned 2 (.revokeAllUserSessions theUser) (.revoked count) ∧
    ∀ h s, q.world.sessions.lookup h = some s → .userSessions theUser ∈ indexes s →
      (∃ d, ∃ ans : Answer Unit, p₀.calls d = none ∧
        .performed d (.hset s) ans ∈ q.history) ∧
      ∀ k' ∈ indexes s, h ∈ q.world.sets.members k' := by
  have hrun : ((store retention).followWhen nothingSlips start before).any (fun p₀ =>
      (p₀.calls 2).isNone && ((store retention).followWhen nothingSlips p₀ after).any fun p =>
        nothingSlips p (.advance 2 .proceed) &&
          ((store retention).step p (.advance 2 .proceed)).any fun q =>
            signedOut 2 q && indexed q) = true := by
    decide +kernel
  obtain ⟨p₀, hrun, htest⟩ := System.Run.of_followWhen_any (fun _ _ h => noneSlips_of_test h) hrun
  obtain ⟨hnew, hrest⟩ := Bool.and_eq_true _ _ ▸ htest
  obtain ⟨p, hrun', htest'⟩ := System.Run.of_followWhen_any (fun _ _ h => noneSlips_of_test h) hrest
  obtain ⟨hmeets, hrest'⟩ := Bool.and_eq_true _ _ ▸ htest'
  obtain ⟨q, hstep, hend⟩ := (Option.any_eq_true _ _).mp hrest'
  obtain ⟨hout, hindexed⟩ := Bool.and_eq_true _ _ ▸ hend
  obtain ⟨count, hreturned⟩ := signedOut_of_test hout
  have hnew : p₀.calls 2 = none := by simpa using hnew
  exact ⟨_, p₀, _, p, q, count, hrun, hnew, hrun', hstep, hreturned,
    revocation_complete hrun hnew hrun' (noneSlips_of_test hmeets) hstep hreturned rfl
      fun h s _ _ k' hk' => not_unindexed_of_test hindexed hk'⟩

open Sample Adapter.Sample in
/-- **A rotation that lands after the revocation has read the members is not revoked**: the
revocation of the family returns, and a session of the family that no store wrote is live. -/
theorem revocation_overtaken : ∃ as p as' q count h s,
    (store retention).Run System.anyStep start as p ∧ p.calls 2 = none ∧
    (store retention).Run System.anyStep p as' q ∧
    q.Returned 2 (.revokeFamily theFamily) (.revoked count) ∧
    q.world.sessions.lookup h = some s ∧ .family theFamily ∈ indexes s ∧
    ∀ d, ∀ ans : Answer Unit, .performed d (.hset s) ans ∉ q.history := by
  have hrun : ((store retention).follow start (storing 0 "a" 10 ++ rotating 1 "a" "b" 2)).any
      (fun p => (p.calls 2).isNone &&
        ((store retention).follow p overtaken).any fun q => revoked 2 q &&
          q.world.sessions.lookup "b" == some (generation "b" 1) &&
            notStored q (generation "b" 1)) = true := by
    decide +kernel
  obtain ⟨p, hrun, htest⟩ := System.Run.of_follow_any hrun
  obtain ⟨hnew, hrest⟩ := Bool.and_eq_true _ _ ▸ htest
  obtain ⟨q, hrun', htest'⟩ := System.Run.of_follow_any hrest
  simp only [Bool.and_eq_true, beq_iff_eq] at htest'
  obtain ⟨⟨hrevoked, hlive⟩, hnot⟩ := htest'
  obtain ⟨count, hreturned⟩ := revoked_of_test hrevoked
  refine ⟨_, p, _, q, count, "b", generation "b" 1, hrun, by simpa using hnew, hrun', hreturned,
    hlive, by decide, fun d ans hmem => ?_⟩
  have := List.all_eq_true.mp hnot _ hmem
  simp at this

end Valkey

end OidcExchange
