import OidcExchange.Adapters.StatsCache
import OidcExchange.Interleaving.Testing

/-!
# Who walks, and whose count is served

A caller walks when the cache is cold or when it has stamped a count that was too old. Two callers
that stamp the cache in this way do so a lifetime apart, unless a count was stored between them
whose instant had been read early. Every count that is returned was counted by some walk, and the
one that is served is the last that was stored.
-/

set_option autoImplicit false

namespace OidcExchange

namespace StatsCache

open Interleaving

/-! ## Marks -/

/-- What shows that the cache was cold, was stamped by a caller, or was filled. -/
inductive Mark : Type
  | cold
  | elected (now : ℕ)
  | stored (fetchedAt count : ℕ)

def markOf : (o : Command) → Ans o → Option Mark
  | .consult, .cold => some .cold
  | .consult, .elected now => some (.elected now)
  | .store fetchedAt count, () => some (.stored fetchedAt count)
  | _, _ => none

/-- The marks, newest first, each with its caller. -/
def marks (m : StatsMoment) : List (ℕ × Mark) := m.collect markOf

/-- What the cache holds after the marks: a caller that stamps it keeps the count. -/
def entryOf : List (ℕ × Mark) → Option (ℕ × ℕ)
  | [] => none
  | (_, .cold) :: older => entryOf older
  | (_, .elected now) :: older => (entryOf older).map fun e => (now, e.2)
  | (_, .stored fetchedAt count) :: _ => some (fetchedAt, count)

/-- A cold cache was never filled, and a count that was stamped anew was too old. -/
def Aged (ttl : ℕ) : List (ℕ × Mark) → Prop
  | [] => True
  | (_, .cold) :: older => entryOf older = none ∧ Aged ttl older
  | (_, .elected now) :: older =>
    (∃ fetchedAt count, entryOf older = some (fetchedAt, count) ∧ fetchedAt + ttl ≤ now) ∧
      Aged ttl older
  | (_, .stored _ _) :: older => Aged ttl older

section Marks

variable {ttl t fetchedAt count c : ℕ} {l between earlier later : List (ℕ × Mark)}

theorem Aged.of_append (h : Aged ttl (later ++ earlier)) : Aged ttl earlier := by
  induction later with
  | nil => exact h
  | cons e later ih =>
    obtain ⟨_, mark⟩ := e
    cases mark with
    | cold => exact ih h.2
    | elected now => exact ih h.2
    | stored fetchedAt count => exact ih h

/-- What the cache holds was stored, and has only been stamped anew since. -/
theorem stored_of_entryOf (h : entryOf l = some (fetchedAt, count)) :
    ∃ newer c s older, l = newer ++ (c, .stored s count) :: older ∧
      (∀ c' s' n, (c', .stored s' n) ∉ newer) ∧
      (fetchedAt = s ∨ ∃ c', (c', .elected fetchedAt) ∈ newer) := by
  induction l generalizing fetchedAt with
  | nil => cases h
  | cons e l ih =>
    obtain ⟨c, mark⟩ := e
    cases mark with
    | cold =>
      obtain ⟨newer, c', s, older, rfl, hnone, hstamp⟩ := ih h
      refine ⟨(c, .cold) :: newer, c', s, older, rfl, by simpa using hnone, ?_⟩
      exact hstamp.imp_right fun ⟨d, hd⟩ => ⟨d, List.mem_cons_of_mem _ hd⟩
    | elected now =>
      obtain ⟨⟨fetchedAt', count'⟩, hentry, heq⟩ := Option.map_eq_some_iff.mp h
      obtain ⟨rfl, rfl⟩ := Prod.mk.inj heq
      obtain ⟨newer, c', s, older, rfl, hnone, -⟩ := ih hentry
      refine ⟨(c, .elected now) :: newer, c', s, older, rfl, by simpa using hnone, .inr ⟨c, ?_⟩⟩
      exact List.mem_cons_self
    | stored s n =>
      cases h
      exact ⟨[], c, fetchedAt, l, rfl, by simp, .inl rfl⟩

/-- Since a caller stamped the cache its instant has gone back only where a count was stored. -/
theorem le_entryOf (haged : Aged ttl (between ++ (c, .elected t) :: earlier))
    (hentry : entryOf (between ++ (c, .elected t) :: earlier) = some (fetchedAt, count)) :
    t ≤ fetchedAt ∨ ∃ c' s n, (c', .stored s n) ∈ between ∧ s ≤ fetchedAt := by
  induction between generalizing fetchedAt count with
  | nil =>
    obtain ⟨e, -, heq⟩ := Option.map_eq_some_iff.mp hentry
    exact .inl (Prod.mk.inj heq).1.le
  | cons e between ih =>
    obtain ⟨d, mark⟩ := e
    cases mark with
    | cold =>
      refine (ih haged.2 hentry).imp_right ?_
      rintro ⟨c', s, n, hmem, hle⟩
      exact ⟨c', s, n, List.mem_cons_of_mem _ hmem, hle⟩
    | elected now =>
      -- the caller found an older stamp
      obtain ⟨e, -, heq⟩ := Option.map_eq_some_iff.mp hentry
      obtain ⟨rfl, -⟩ := Prod.mk.inj heq
      obtain ⟨⟨found, n, hfound, hold⟩, haged⟩ := haged
      rcases ih haged hfound with hle | ⟨c', s, n', hmem, hle⟩
      · exact .inl (by omega)
      · exact .inr ⟨c', s, n', List.mem_cons_of_mem _ hmem, by omega⟩
    | stored s n =>
      cases hentry
      exact .inr ⟨d, fetchedAt, count, List.mem_cons_self, le_rfl⟩

/-- Two callers stamp the cache a lifetime apart, or an early instant was stored between them. -/
theorem Aged.spaced {d t' : ℕ}
    (haged : Aged ttl ((d, .elected t') :: between ++ (c, .elected t) :: earlier)) :
    t + ttl ≤ t' ∨ ∃ c' s n, (c', .stored s n) ∈ between ∧ s + ttl ≤ t' := by
  obtain ⟨⟨found, n, hfound, hold⟩, haged⟩ := haged
  rcases le_entryOf haged hfound with hle | ⟨c', s, n', hmem, hle⟩
  · exact .inl (by omega)
  · exact .inr ⟨c', s, n', hmem, by omega⟩

/-- Once the cache was filled it is not cold again. -/
theorem Aged.never_cold (haged : Aged ttl (between ++ (c, .stored fetchedAt count) :: earlier))
    (d : ℕ) : (d, .cold) ∉ between := by
  have hfilled : ∀ between : List (ℕ × Mark),
      (entryOf (between ++ (c, .stored fetchedAt count) :: earlier)).isSome := by
    intro between
    induction between with
    | nil => rfl
    | cons e between ih =>
      obtain ⟨_, mark⟩ := e
      cases mark with
      | cold => exact ih
      | elected now => simpa [entryOf] using ih
      | stored s n => rfl
  intro hmem
  obtain ⟨newer, older, rfl⟩ := List.append_of_mem hmem
  rw [List.append_assoc] at haged
  have hnone : entryOf (older ++ (c, .stored fetchedAt count) :: earlier) = none :=
    haged.of_append.1
  have hsome := hfilled older
  rw [hnone] at hsome
  cases hsome

end Marks

/-! ## What one operation does -/

variable {config : Config}

/-- Everything one operation can do. -/
inductive Step (config : Config) (w : World) : (o : Command) → Ans o → World → Prop
  | served (fetchedAt count : ℕ) (h : w.cache = some (fetchedAt, count))
      (past : fetchedAt ≤ w.clock) (young : w.clock < fetchedAt + config.statsCacheTtl) :
      Step config w .consult (.served count w.clock) w
  | elected (fetchedAt count : ℕ) (h : w.cache = some (fetchedAt, count))
      (old : fetchedAt + config.statsCacheTtl ≤ w.clock) :
      Step config w .consult (.elected w.clock) { w with cache := some (w.clock, count) }
  | cold (h : w.cache = none) : Step config w .consult .cold w
  | ahead (fetchedAt count : ℕ) (h : w.cache = some (fetchedAt, count))
      (future : w.clock < fetchedAt) : Step config w .consult .ahead w
  | walked (ans : Except Error ℕ) : Step config w .walk ans w
  | read : Step config w .now w.clock w
  | stored (fetchedAt count : ℕ) :
      Step config w (.store fetchedAt count) () { w with cache := some (fetchedAt, count) }

theorem Step.of_exec {x : Choice} {c : ℕ} {o : Command} {ans : Ans o} {w w' : World}
    (h : exec config x c o w = some (ans, w')) : Step config w o ans w' := by
  cases o with
  | consult =>
    cases x with
    | proceed =>
      have hconsult : w.consult config = (ans, w') := Option.some.inj h
      unfold World.consult at hconsult
      split at hconsult
      · rename_i hcache
        cases hconsult
        exact .cold hcache
      · rename_i fetchedAt count hcache
        split at hconsult
        · rename_i hfuture
          cases hconsult
          exact .ahead fetchedAt count hcache hfuture
        · rename_i hpast
          split at hconsult
          · rename_i hyoung
            cases hconsult
            exact .served fetchedAt count hcache (by omega) (by omega)
          · rename_i hold
            cases hconsult
            exact .elected fetchedAt count hcache (by omega)
    | answer count => cases h
    | fail e => cases h
  | walk =>
    cases x with
    | proceed => cases h
    | answer count =>
      cases h
      exact .walked _
    | fail e =>
      cases h
      exact .walked _
  | now =>
    cases x <;> cases h
    exact .read
  | store fetchedAt count =>
    cases x <;> cases h
    exact .stored fetchedAt count

/-! ## What a caller does -/

abbrev Past : Type := List (Performed Ans)

/-- What is stored was counted by a walk, with an instant that was read. -/
def Ready (past : Past) : Command → Prop
  | .store fetchedAt count => ⟨.walk, .ok count⟩ ∈ past ∧ ⟨.now, fetchedAt⟩ ∈ past
  | _ => True

/-- What is returned was served or counted; a failure is that of the walk, or a stamp was ahead. -/
def Concluded (past : Past) : Except (Fault Error) ℕ → Prop
  | .ok count => (∃ now, ⟨.consult, .served count now⟩ ∈ past) ∨ ⟨.walk, .ok count⟩ ∈ past
  | .error e => ⟨.consult, .ahead⟩ ∈ past ∨ ∃ e', e = .error e' ∧ ⟨.walk, .error e'⟩ ∈ past

theorem refresh_obeys (past : Past) : (refresh config).Obeys Ready Concluded past := by
  refine ⟨trivial, ?_⟩
  rintro (e | count)
  · exact .inr ⟨e, rfl, List.mem_cons_self⟩
  · refine Adapter.obeys_assert (fun _ => ⟨trivial, fun fetchedAt => ⟨⟨?_, ?_⟩, ?_⟩⟩)
      fun hfalse => ?_
    · exact List.mem_cons_of_mem _ List.mem_cons_self
    · exact List.mem_cons_self
    · exact fun _ => .inr (List.mem_cons_of_mem _ (List.mem_cons_of_mem _ List.mem_cons_self))
    · exact absurd config.usable.1 (of_decide_eq_false hfalse)

theorem countActiveSessions_obeys (config : Config) :
    (countActiveSessions config).Obeys Ready Concluded [] := by
  refine ⟨trivial, fun found => ?_⟩
  cases found with
  | served count now => exact .inl ⟨now, List.mem_cons_self⟩
  | elected now => exact refresh_obeys _
  | cold => exact refresh_obeys _
  | ahead => exact .inl List.mem_cons_self

/-! ## The invariant -/

/-- A count was served because it was young: what the cache held, from the marks there were. -/
def ServedYoung (ttl : ℕ) (l : List (ℕ × Mark)) (count now : ℕ) : Prop :=
  ∃ older fetchedAt, older <:+ l ∧ entryOf older = some (fetchedAt, count) ∧ now < fetchedAt + ttl

/-- What an answer says of the state: no instant is in the future, and a count was young. -/
def Fact (config : Config) (m : StatsMoment) : (o : Command) → Ans o → Prop
  | .now, t => t ≤ m.world.clock
  | .consult, .served count now => ServedYoung config.statsCacheTtl (marks m) count now
  | .consult, .ahead => False
  | _, _ => True

/-- The cache holds what the marks say, its instant is not in the future, and the answers are
true. -/
structure Inv (config : Config) (m : StatsMoment) : Prop where
  cache : m.world.cache = entryOf (marks m)
  aged : Aged config.statsCacheTtl (marks m)
  stamped : ∀ fetchedAt count, m.world.cache = some (fetchedAt, count) → fetchedAt ≤ m.world.clock
  facts : ∀ c o (ans : Ans o), .performed c o ans ∈ m.history → Fact config m o ans

section Performed

variable {m m' : StatsMoment} {c : ℕ} {o : Command} {ans : Ans o} {w' : World}

/-- What was true stays so as time passes and marks are added. -/
theorem Fact.mono (h : Fact config m o ans) (hclock : m.world.clock ≤ m'.world.clock)
    (hmarks : marks m <:+ marks m') : Fact config m' o ans := by
  unfold Fact at h ⊢
  split
  · exact h.trans hclock
  · obtain ⟨older, fetchedAt, holder, hentry, hyoung⟩ := h
    exact ⟨older, fetchedAt, holder.trans hmarks, hentry, hyoung⟩
  · exact h
  · trivial

theorem marks_suffix (m : StatsMoment) (c : ℕ) (o : Command) (ans : Ans o) (w' : World) :
    marks m <:+ marks (m.performed c o ans w') :=
  (List.suffix_cons ..).filterMap _

/-- The invariant after an operation, from what is new in it. -/
theorem Inv.of_new (h : Inv config m) (hclock : w'.clock = m.world.clock)
    (hcache : w'.cache = entryOf (marks (m.performed c o ans w')))
    (haged : Aged config.statsCacheTtl (marks (m.performed c o ans w')))
    (hstamped : ∀ fetchedAt count, w'.cache = some (fetchedAt, count) → fetchedAt ≤ w'.clock)
    (hfact : Fact config (m.performed c o ans w') o ans) :
    Inv config (m.performed c o ans w') := by
  refine ⟨hcache, haged, hstamped, fun c' o' ans' hmem => ?_⟩
  rcases List.mem_cons.mp hmem with heq | hmem
  · cases heq
    exact hfact
  · exact (h.facts c' o' ans' hmem).mono hclock.ge (marks_suffix ..)

/-- An operation that leaves no mark and does not move the world. -/
theorem Inv.unmarked (h : Inv config m) (hmark : markOf o ans = none)
    (hfact : Fact config (m.performed c o ans m.world) o ans) :
    Inv config (m.performed c o ans m.world) := by
  have hmarks : marks (m.performed c o ans m.world) = marks m :=
    Moment.collect_performed_none _ _ _ hmark
  refine h.of_new rfl ?_ ?_ h.stamped hfact
  · rw [hmarks]
    exact h.cache
  · rw [hmarks]
    exact h.aged

/-- Every operation of a caller keeps the invariant. -/
theorem Inv.performed (h : Inv config m) (hready : Ready (m.past c) o)
    (hstep : Step config m.world o ans w') : Inv config (m.performed c o ans w') := by
  have hmarks : ∀ mark, markOf o ans = some mark →
      marks (m.performed c o ans w') = (c, mark) :: marks m :=
    fun mark hmark => Moment.collect_performed_some _ _ _ hmark
  cases hstep with
  | served fetchedAt count hcache _ young =>
    refine h.unmarked rfl ⟨marks m, fetchedAt, marks_suffix .., ?_, young⟩
    rw [← h.cache, hcache]
  | elected fetchedAt count hcache old =>
    have hentry := h.cache.symm.trans hcache
    refine h.of_new rfl ?_ ?_ ?_ trivial
    · rw [hmarks _ rfl, entryOf, hentry]
      rfl
    · rw [hmarks _ rfl]
      exact ⟨⟨fetchedAt, count, hentry, old⟩, h.aged⟩
    · rintro _ _ ⟨⟩
      exact le_rfl
  | cold hcache =>
    have hentry := h.cache.symm.trans hcache
    refine h.of_new rfl ?_ ?_ h.stamped trivial
    · rw [hmarks _ rfl]
      exact h.cache
    · rw [hmarks _ rfl]
      exact ⟨hentry, h.aged⟩
  | ahead fetchedAt count hcache future =>
    exact absurd (h.stamped fetchedAt count hcache) (Nat.not_le.mpr future)
  | walked ans => exact h.unmarked rfl trivial
  | read => exact h.unmarked rfl le_rfl
  | stored fetchedAt count =>
    have hread : fetchedAt ≤ m.world.clock :=
      h.facts c .now fetchedAt ((Moment.mem_past ..).mp hready.2)
    refine h.of_new rfl ?_ ?_ ?_ trivial
    · rw [hmarks _ rfl]
      rfl
    · rw [hmarks _ rfl]
      exact h.aged
    · rintro _ _ ⟨⟩
      exact hread

end Performed

theorem Inv.start (config : Config) (clock : ℕ) : Inv config (StatsPool.start clock).toMoment where
  cache := rfl
  aged := trivial
  stamped := by rintro _ _ ⟨⟩
  facts := by simp [StatsPool.start, Pool.initial]

/-! ## Runs -/

/-- The cache, in every run. -/
def statsProtocol (config : Config) : Protocol (semantics config) fun _ : Unit => Ready where
  inv := Inv config
  allowed _ _ _ _ := True
  begins h _ := ⟨h.cache, h.aged, h.stamped, fun c o ans hmem =>
    (h.facts c o ans (by simpa using hmem)).mono le_rfl List.suffix_rfl⟩
  performs {m c i x o ans w} h _ hready _ hex := h.performed hready (.of_exec (c := c) hex)
  ends h _ := ⟨h.cache, h.aged, h.stamped, fun c o ans hmem =>
    (h.facts c o ans (by simpa using hmem)).mono le_rfl List.suffix_rfl⟩
  drifts {m k w} h hdrift := by
    obtain ⟨later⟩ := k
    unfold semantics drift at hdrift
    simp only [Option.ite_none_right_eq_some, Option.some.injEq] at hdrift
    obtain ⟨hlater, rfl⟩ := hdrift
    exact ⟨h.cache, h.aged, fun f n hcache => (h.stamped f n hcache).trans hlater,
      fun c o ans hmem => (h.facts c o ans hmem).mono hlater List.suffix_rfl⟩

section Runs

variable {clock : ℕ} {as : List StatsAct} {p : StatsPool}

theorem inv_of_run (hrun : (stats config).Run System.anyStep (.start clock) as p) :
    Inv config p.toMoment :=
  (statsProtocol config).run (fun _ => countActiveSessions_obeys config)
    (hrun.mono fun _ _ _ _ _ _ _ => trivial) (.initial _) (Inv.start config clock)

/-- What was stored was counted by its caller. -/
theorem counted_of_stored (hrun : (stats config).Run System.anyStep (.start clock) as p)
    {c fetchedAt count : ℕ} (hmem : (c, .stored fetchedAt count) ∈ marks p.toMoment) :
    .performed c .walk (.ok count) ∈ p.history := by
  obtain ⟨o, ans, hperformed, hmark⟩ := Moment.mem_collect.mp hmem
  cases o with
  | store f n =>
    cases hmark
    obtain ⟨_, past, _, hready, hpast⟩ :=
      admitted_of_run (fun _ => countActiveSessions_obeys config) hrun c _ _ hperformed
    exact (Moment.mem_past ..).mp (hpast.subset (List.mem_cons_of_mem _ hready.1))
  | consult => cases ans <;> cases hmark
  | walk => cases hmark
  | now => cases hmark

/-- **Who walks**: in every run of concurrent callers, a caller finds the cache cold only before it
was first filled, and two callers that stamp it to walk do so at least a lifetime apart, unless
between them a count was stored with an instant a lifetime before the second. -/
theorem elections_spaced (hrun : (stats config).Run System.anyStep (.start clock) as p) :
    (∀ later earlier c fetchedAt count,
      marks p.toMoment = later ++ (c, .stored fetchedAt count) :: earlier →
        ∀ d, (d, .cold) ∉ later) ∧
      ∀ later between earlier c d t t',
        marks p.toMoment = later ++ (d, .elected t') :: between ++ (c, .elected t) :: earlier →
          t + config.statsCacheTtl ≤ t' ∨
            ∃ c' s n, (c', .stored s n) ∈ between ∧ s + config.statsCacheTtl ≤ t' := by
  have haged := (inv_of_run hrun).aged
  constructor
  · intro later earlier c fetchedAt count hmarks
    exact (hmarks ▸ haged).never_cold
  · intro later between earlier c d t t' hmarks
    rw [hmarks, List.append_assoc] at haged
    exact haged.of_append.spaced

/-- **Whose count is served**: in every run of concurrent callers no caller panics, a caller fails
only as its own walk does, and what a caller returns is what its own walk counted or what another
caller's walk counted that was the last to be stored; then the count is younger than a lifetime, or
a caller has stamped it within a lifetime to count anew. -/
theorem counts_walked (hrun : (stats config).Run System.anyStep (.start clock) as p) :
    (∀ c e, p.Failed c () e → ∃ e', e = .error e' ∧ .performed c .walk (.error e') ∈ p.history) ∧
      ∀ c count, p.Returned c () count → .performed c .walk (.ok count) ∈ p.history ∨
        ∃ now later newer older c' s, .performed c .consult (.served count now) ∈ p.history ∧
          marks p.toMoment = later ++ newer ++ (c', .stored s count) :: older ∧
          .performed c' .walk (.ok count) ∈ p.history ∧ (∀ d f n, (d, .stored f n) ∉ newer) ∧
          (now < s + config.statsCacheTtl ∨
            ∃ d t, (d, .elected t) ∈ newer ∧ now < t + config.statsCacheTtl) := by
  have hdisciplined : Disciplined (fun _ => Ready) (fun _ => Concluded) p :=
    (Disciplined.initial _).run (fun _ => countActiveSessions_obeys config) hrun
  have hinv := inv_of_run hrun
  constructor
  · intro c e hfailed
    rcases hdisciplined.failed hfailed with hahead | ⟨e', rfl, hwalk⟩
    · exact (hinv.facts c .consult .ahead ((Moment.mem_past ..).mp hahead)).elim
    · exact ⟨e', rfl, (Moment.mem_past ..).mp hwalk⟩
  · intro c count hreturned
    rcases hdisciplined.returned hreturned with ⟨now, hserved⟩ | hwalk
    · have hserved := (Moment.mem_past ..).mp hserved
      obtain ⟨held, fetchedAt, ⟨later, hmarks⟩, hentry, hyoung⟩ :=
        hinv.facts c .consult (.served count now) hserved
      obtain ⟨newer, c', s, older, rfl, hlast, hstamp⟩ := stored_of_entryOf hentry
      refine .inr ⟨now, later, newer, older, c', s, hserved, ?_, ?_, hlast, ?_⟩
      · rw [← hmarks, List.append_assoc]
      · have hmem : (c', .stored s count) ∈ marks p.toMoment := by
          rw [← hmarks]
          simp
        exact counted_of_stored hrun hmem
      · rcases hstamp with rfl | ⟨d, hd⟩
        · exact .inl hyoung
        · exact .inr ⟨d, fetchedAt, hd, hyoung⟩
    · exact .inl ((Moment.mem_past ..).mp hwalk)

end Runs

end StatsCache

end OidcExchange
