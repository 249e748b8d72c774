import OidcExchange.Adapters.ValkeyCleanup
import OidcExchange.Analysis.ValkeySweep

/-!
# What the calls on Valkey have done when they act, with cleanup

A write obeys the discipline it obeys without cleanup. Cleanup probes members it has read and
takes out those it found without a session; the set it deletes at the end may have gained members
since it counted them.
-/

set_option autoImplicit false

namespace OidcExchange

namespace Valkey

namespace Cleanup

open Interleaving Storage

abbrev Past : Type := List (Performed SweepAns)

/-- The command of a write. -/
def writeOf : Performed SweepAns → Option (Performed Ans)
  | ⟨.write o, ans⟩ => some ⟨o, ans⟩
  | _ => none

/-- What the call has performed of the commands of the writes. -/
def writes (past : Past) : List (Performed Ans) := past.filterMap writeOf

theorem mem_writes {past : Past} {o : Command} {ans : Ans o} :
    ⟨o, ans⟩ ∈ writes past ↔ ⟨.write o, ans⟩ ∈ past := by
  simp only [writes, List.mem_filterMap]
  constructor
  · rintro ⟨⟨o', ans'⟩, hmem, hof⟩
    cases o' with
    | write o' =>
      obtain ⟨rfl, hans⟩ := Sigma.mk.inj (Option.some.inj hof)
      exact eq_of_heq hans ▸ hmem
    | _ => exact absurd hof (by simp [writeOf])
  · intro hmem
    exact ⟨_, hmem, rfl⟩

/-- A command of a revocation that has read its index set. -/
def Follows : Command → Prop
  | .eval _ => False
  | .smembers _ => False
  | _ => True

/-- A revocation reads its index set before anything else, and once. -/
def Reads (request : Request) (past : List (Performed Ans)) (o : Command) : Prop :=
  ∀ k, request.index? = some k → (o = .smembers k ∧ past = []) ∨
    ((∃ ids, ⟨.smembers k, .ok ids⟩ ∈ past) ∧ Follows o)

/-- A store that returns has put its session in the index sets. -/
def Indexes (request : Request) (past : List (Performed Ans)) :
    Except (Fault Error) Response → Prop
  | .ok _ => ∀ s, request = .store s → ∀ k ∈ indexes s, ⟨.sadd k s.refreshTokenHash, .ok ()⟩ ∈ past
  | .error _ => True

/-- What the past of a call contains when it performs a command. -/
def SweepReady (request : SweepRequest) (past : Past) : SweepCommand → Prop
  | .write o =>
    match request with
    | .write request => Ready request (writes past) o ∧ Reads request (writes past) o
    | .cleanup => (∃ k, o = .smembers k) ∨ (∃ k, o = .scard k) ∨ ∃ k, o = .del [k] ∧ k.IsIndex
  | .probe (.session h) => request = .cleanup ∧
      ∃ k ids, ⟨.write (.smembers k), .ok ids⟩ ∈ past ∧ h ∈ ids
  | .sremAll _ hs => request = .cleanup ∧ ∀ h ∈ hs, ⟨.probe (.session h), .ok false⟩ ∈ past
  | _ => request = .cleanup

/-- What a call has done when it returns. -/
def Outcome (request : SweepRequest) (past : Past) (r : Except (Fault Error) Response) : Prop :=
  match request with
  | .write request => RevocationOutcome request (writes past) r ∧ Indexes request (writes past) r
  | .cleanup => True

/-! ## Writes -/

section Writes

variable {h : String} {k : Key} {base past : List (Performed Ans)}

end Writes

section Cleaning

open Program

variable {base : Past} {h : String} {k : Key}

/-- The call has found no session under the hash. -/
def Probed (past : Past) (h : String) : Prop := ⟨.probe (.session h), .ok false⟩ ∈ past

/-- The call has read the hash as a member of some set. -/
def Seen (past : Past) (h : String) : Prop :=
  ∃ k ids, ⟨.write (.smembers k), .ok ids⟩ ∈ past ∧ h ∈ ids

theorem Seen.suffix {past : Past} (hs : Seen base h) (hsuffix : base <:+ past) : Seen past h := by
  obtain ⟨k, ids, hmem, hh⟩ := hs
  exact ⟨k, ids, hsuffix.subset hmem, hh⟩

theorem probe_obeys (hready : SweepReady .cleanup base (.probe k)) :
    (probe k).Obeys (SweepReady .cleanup)
      (Grown base fun past b => ⟨.probe k, .ok b⟩ ∈ past) base := by
  refine Adapter.obeys_await (o := SweepCommand.probe k) (g := id) hready ?_
  rintro ans b rfl
  exact List.mem_cons_self ..

/-- A command whose answer does not matter. -/
theorem send_obeys {α : Type} {o : SweepCommand} {g : SweepAns o → Answer α}
    (hready : SweepReady .cleanup base o) :
    (Adapter.await (.perform o fun ans => .done (g ans)) : Adapter SweepAns α).Obeys
      (SweepReady .cleanup) (Grown base fun _ _ => True) base :=
  Adapter.obeys_await hready fun _ _ _ => trivial

theorem sessionGone_obeys (hseen : Seen base h) : (sessionGone h).Obeys (SweepReady .cleanup)
    (Grown base fun past b => b = true → Probed past h) base := by
  refine (probe_obeys (k := .session h) ⟨rfl, hseen⟩).grown_bind fun past b _ hb => grown_ok fun hgone => ?_
  cases b with
  | true => exact absurd hgone (by simp)
  | false => exact hb

theorem generationGone_obeys (hseen : Seen base h) : (generationGone h).Obeys (SweepReady .cleanup)
    (Grown base fun past b => b = true → Probed past h) base := by
  refine (probe_obeys (k := .session h) ⟨rfl, hseen⟩).grown_bind fun past b _ hb => ?_
  cases b with
  | true => exact grown_ok fun hgone => absurd hgone (by simp)
  | false =>
    refine (probe_obeys (k := .retired h) rfl).grown_bind fun past' b' hsuffix _ => grown_ok fun _ => ?_
    exact hsuffix.subset hb

theorem deadMembers_obeys {isDead : String → Adapter SweepAns Bool}
    (hisDead : ∀ {base h}, Seen base h → (isDead h).Obeys (SweepReady .cleanup)
      (Grown base fun past b => b = true → Probed past h) base)
    (members dead : List String) (hseen : ∀ h ∈ members, Seen base h)
    (hdead : ∀ h ∈ dead, Probed base h) :
    (deadMembers isDead members dead).Obeys (SweepReady .cleanup)
      (Grown base fun past found => ∀ h ∈ found, Probed past h) base := by
  induction members generalizing base dead with
  | nil => exact grown_ok hdead
  | cons h members ih =>
    refine (hisDead (hseen h (List.mem_cons_self ..))).grown_bind fun past b hsuffix hb => ?_
    have hseen' : ∀ h ∈ members, Seen past h := fun h hh =>
      (hseen h (List.mem_cons_of_mem _ hh)).suffix hsuffix
    have hdead' : ∀ h ∈ dead, Probed past h := fun h hh => hsuffix.subset (hdead h hh)
    cases b with
    | true =>
      refine ih (dead ++ [h]) hseen' fun h' hh' => ?_
      obtain hh' | hh' := List.mem_append.mp hh'
      · exact hdead' h' hh'
      · obtain rfl := List.mem_singleton.mp hh'
        exact hb rfl
    | false => exact ih dead hseen' hdead'

theorem removeDead_obeys {dead : List String} (hdead : ∀ h ∈ dead, Probed base h) :
    (removeDead k dead).Obeys (SweepReady .cleanup) (Grown base fun _ _ => True) base := by
  unfold removeDead
  split
  · exact grown_ok trivial
  · refine (send_obeys (o := SweepCommand.sremAll k dead) (g := id) ⟨rfl, hdead⟩).grown_bind
      fun past removed _ _ => ?_
    exact Adapter.obeys_assert (fun _ => grown_ok trivial) fun _ => grown_error _

theorem pruneSet_obeys {isDead : String → Adapter SweepAns Bool}
    (hisDead : ∀ {base h}, Seen base h → (isDead h).Obeys (SweepReady .cleanup)
      (Grown base fun past b => b = true → Probed past h) base) (hk : k.IsIndex) :
    (pruneSet isDead k).Obeys (SweepReady .cleanup) (Grown base fun _ _ => True) base := by
  have hmembers : (sent (smembers k)).Obeys (SweepReady .cleanup)
      (Grown base fun past ids => ⟨.write (.smembers k), .ok ids⟩ ∈ past) base := by
    refine ⟨.inl ⟨k, rfl⟩, ?_⟩
    rintro (e | ids)
    · exact ⟨List.suffix_cons .., fun _ hok => by cases hok⟩
    · exact ⟨List.suffix_cons .., fun _ hok => by cases hok; exact List.mem_cons_self ..⟩
  refine hmembers.grown_bind fun past₁ members _ hread => ?_
  refine (deadMembers_obeys hisDead members [] (fun h hh => ⟨k, members, hread, hh⟩)
    (by simp)).grown_bind fun past₂ dead _ hdead => ?_
  refine (removeDead_obeys hdead).grown_bind fun past₃ removed _ _ => ?_
  have hcount : (sent (scard k)).Obeys (SweepReady .cleanup) (Grown past₃ fun _ _ => True) past₃ := by
    refine ⟨.inr (.inl ⟨k, rfl⟩), ?_⟩
    rintro (e | n) <;> exact ⟨List.suffix_cons .., fun _ _ => trivial⟩
  refine hcount.grown_bind fun past₄ remaining _ _ => ?_
  refine Obeys.grown_bind (P := fun _ _ => True) (Adapter.obeys_when (fun _ => ?_)
    fun _ => grown_ok trivial) fun past₅ _ _ _ => grown_ok trivial
  refine ⟨.inr (.inr ⟨k, rfl, hk⟩), ?_⟩
  rintro (e | n)
  · exact ⟨List.suffix_cons .., fun _ _ => trivial⟩
  · exact ⟨List.suffix_cons .., fun _ _ => trivial⟩

theorem pruneSets_obeys {isDead : String → Adapter SweepAns Bool}
    (hisDead : ∀ {base h}, Seen base h → (isDead h).Obeys (SweepReady .cleanup)
      (Grown base fun past b => b = true → Probed past h) base)
    (keys : List Key) (counts : ℕ × ℕ) (hkeys : ∀ k ∈ keys, k.IsIndex) :
    (pruneSets isDead keys counts).Obeys (SweepReady .cleanup) (Grown base fun _ _ => True)
      base := by
  induction keys generalizing base counts with
  | nil => exact grown_ok trivial
  | cons k keys ih =>
    refine (pruneSet_obeys hisDead (hkeys k (List.mem_cons_self ..))).grown_bind
      fun past counts' _ _ => ?_
    exact ih _ fun k' hk' => hkeys k' (List.mem_cons_of_mem _ hk')

theorem cleanupExpiredSessions_obeys :
    cleanupExpiredSessions.Obeys (SweepReady .cleanup) (Grown base fun _ _ => True) base := by
  have hindex : ∀ (make : String → Key) (names : List String), (∀ name, (make name).IsIndex) →
      ∀ k ∈ names.map make, k.IsIndex := by
    intro make names hmake k hk
    obtain ⟨name, -, rfl⟩ := List.mem_map.mp hk
    exact hmake name
  refine (send_obeys (o := SweepCommand.scanUserSets) (g := id) rfl).grown_bind fun past₁ users _ _ => ?_
  refine (pruneSets_obeys sessionGone_obeys _ (0, 0) (hindex .userSessions users fun _ => trivial)).grown_bind
    fun past₂ counts _ _ => ?_
  refine Adapter.obeys_assert (fun _ => ?_) fun _ => grown_error _
  refine (send_obeys (o := SweepCommand.scanFamilySets) (g := id) rfl).grown_bind fun past₃ families _ _ => ?_
  refine (pruneSets_obeys generationGone_obeys _ _ (hindex .family families fun _ => trivial)).grown_bind
    fun past₄ counts' _ _ => ?_
  refine (send_obeys (o := SweepCommand.scanSessions) (g := id) rfl).grown_bind fun past₅ live _ _ => ?_
  refine (send_obeys (o := SweepCommand.setCounter _) (g := id) rfl).grown_bind fun past₆ _ _ _ => ?_
  refine (send_obeys (o := SweepCommand.getCounter) (g := id) rfl).grown_bind fun past₇ reconciled _ _ => ?_
  exact Adapter.obeys_assert (fun _ => grown_ok trivial) fun _ => grown_error _

end Cleaning

end Cleanup

end Valkey

end OidcExchange
