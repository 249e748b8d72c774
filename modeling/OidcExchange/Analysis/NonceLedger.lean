import OidcExchange.Analysis.GrantFlow
import OidcExchange.Analysis.PortFacts

/-!
# Nonces are single use

A nonce key is claimed by the call that drew the nonce, once; a burn that succeeds removes the
record, so no second burn does. A call that an earlier control refused has performed nothing on
the single-use records.
-/

set_option autoImplicit false

namespace OidcExchange

open Storage Interleaving

/-- The world and the history of a pool of grants. -/
abbrev GrantMoment : Type := Moment BindingAns GrantRequest BindingWorld

/-- A pool of grants. -/
abbrev GrantPool : Type := Pool BindingAns GrantRequest (Fault Error) GrantResponse BindingWorld

/-- What the scheduler can do to a pool of grants. -/
abbrev GrantAct : Type := Act GrantRequest BindingChoice BindingDrift

/-- The grants of a deployment as a transition system. -/
abbrev grants (d : Deployment) (g : GrantSettings) : System GrantPool GrantAct :=
  Pool.system (bindingSemantics d) (grantBody d g)

/-- The pool before any call. -/
abbrev GrantPool.start (clock : Instant) : GrantPool := Pool.initial (BindingWorld.empty clock)

/-! ## Steps of the single-use records -/

/-- Everything an operation can do to the clock, the drawn texts and the single-use records. -/
inductive GrantStep (d : Deployment) (w : BindingWorld) :
    (o : BindingOp) → BindingAns o → BindingWorld → Prop
  | drew (raw : String) (fresh : d.digest raw ∉ w.ports.tokens.map d.digest) :
      GrantStep d w (.port .randomToken) raw
        { w with ports := { w.ports with tokens := raw :: w.ports.tokens } }
  | port {o : Op} {ans : Ans o} {ports : World} (undrawn : drawOf o ans = none)
      (clock : w.ports.clock ≤ ports.clock) (tokens : ports.tokens = w.ports.tokens) :
      GrantStep d w (.port o) ans { w with ports := ports }
  | claimed {key : String} {expiresAt : Instant} {ans : Answer Bool}
      (lapsed : ∀ e, w.singleUse.lookup key = some e → e ≤ w.ports.clock) :
      GrantStep d w (.putSingleUse key expiresAt) ans
        { w with singleUse := w.singleUse.insert key expiresAt }
  | notClaimed {key : String} {expiresAt : Instant} {ans : Answer Bool} (refused : ans ≠ .ok true) :
      GrantStep d w (.putSingleUse key expiresAt) ans w
  | burned {key : String} {ans : Answer Bool} {e : Instant}
      (here : w.singleUse.lookup key = some e) :
      GrantStep d w (.takeSingleUse key) ans { w with singleUse := w.singleUse.erase key }
  | notBurned {key : String} {ans : Answer Bool} (refused : ans ≠ .ok true) :
      GrantStep d w (.takeSingleUse key) ans w

section Steps

variable {d : Deployment} {x : BindingChoice} {c : ℕ} {w w' : BindingWorld}

/-- The port's own rule for a claim. -/
theorem put_cases (now : Instant) (key : String) (expiresAt : Instant) (t : Table String Instant) :
    ((∀ e, t.lookup key = some e → e ≤ now) ∧
      SingleUseStore.port.put now key expiresAt t = (.ok true, t.insert key expiresAt)) ∨
    ((SingleUseStore.port.put now key expiresAt t).1 ≠ .ok true ∧
      (SingleUseStore.port.put now key expiresAt t).2 = t) := by
  simp only [SingleUseStore.port]
  by_cases hkey : key = ""
  · simp [hkey]
  rw [if_neg hkey]
  cases hlookup : t.lookup key with
  | none => exact .inl ⟨by simp, rfl⟩
  | some e =>
    by_cases hlive : now < e
    · simp [hlive]
    · exact .inl ⟨by simpa using Int.not_lt.mp hlive, by simp [hlive]⟩

/-- The port's own rule for a burn. -/
theorem take_cases (now : Instant) (key : String) (t : Table String Instant) :
    (∃ e, t.lookup key = some e ∧
      SingleUseStore.port.take now key t = (.ok (decide (now < e)), t.erase key)) ∨
    ((SingleUseStore.port.take now key t).1 ≠ .ok true ∧
      (SingleUseStore.port.take now key t).2 = t) := by
  simp only [SingleUseStore.port]
  by_cases hkey : key = ""
  · simp [hkey]
  rw [if_neg hkey]
  cases hlookup : t.lookup key with
  | none => simp
  | some e => exact .inl ⟨e, rfl, rfl⟩

/-- An operation on the records took place, with an answer that may be lost, or did not. -/
theorem answerSingleUse_cases {done : Answer Bool × Table String Instant} {ans : Answer Bool}
    (h : w.answerSingleUse done x = some (ans, w')) :
    ((ans = done.1 ∨ ∃ e, ans = .error (.error e)) ∧ w' = { w with singleUse := done.2 }) ∨
      ((∃ e, ans = .error (.error e)) ∧ w' = w) := by
  unfold BindingWorld.answerSingleUse at h
  split at h
  · obtain ⟨rfl, rfl⟩ := Prod.mk.inj (Option.some.inj h)
    exact .inl ⟨.inl rfl, rfl⟩
  · rename_i e
    obtain ⟨rfl, rfl⟩ := Prod.mk.inj (Option.some.inj h)
    exact .inr ⟨⟨e, rfl⟩, rfl⟩
  · rename_i e
    obtain ⟨rfl, rfl⟩ := Prod.mk.inj (Option.some.inj h)
    exact .inl ⟨.inr ⟨e, rfl⟩, rfl⟩
  · exact absurd h (by simp)

theorem grantStep_of_exec {o : BindingOp} {ans : BindingAns o}
    (h : BindingWorld.exec d x c o w = some (ans, w')) : GrantStep d w o ans w' := by
  cases o with
  | port o =>
    cases x with
    | lost e => exact absurd h (by simp [BindingWorld.exec])
    | port x =>
      obtain ⟨⟨ans', ports⟩, hex, hsame⟩ := Option.map_eq_some_iff.mp h
      obtain ⟨rfl, rfl⟩ := Prod.mk.inj hsame
      have hstep := storeStep_of_exec hex
      cases hstep with
      | drew raw fresh => exact .drew raw fresh
      | drewFamily | stored | rotated => exact .port rfl (Int.le_refl _) rfl
      | shrank hunseen hshrinks => exact .port hunseen.draw hshrinks.clock hshrinks.tokens
  | putSingleUse key expiresAt =>
    obtain ⟨hans, rfl⟩ | ⟨⟨e, rfl⟩, rfl⟩ := answerSingleUse_cases h
    · obtain ⟨hlapsed, hput⟩ | ⟨hrefused, hsame⟩ :=
        put_cases w.ports.clock key expiresAt w.singleUse
      · rw [hput]
        exact .claimed hlapsed
      · rw [hsame]
        refine .notClaimed ?_
        obtain rfl | ⟨e, rfl⟩ := hans
        · exact hrefused
        · simp
    · exact .notClaimed (by simp)
  | takeSingleUse key =>
    obtain ⟨hans, rfl⟩ | ⟨⟨e, rfl⟩, rfl⟩ := answerSingleUse_cases h
    · obtain ⟨e, hlookup, htake⟩ | ⟨hrefused, hsame⟩ := take_cases w.ports.clock key w.singleUse
      · rw [htake]
        exact .burned hlookup
      · rw [hsame]
        refine .notBurned ?_
        obtain rfl | ⟨e, rfl⟩ := hans
        · exact hrefused
        · simp
    · exact .notBurned (by simp)

/-- The clock moves forward only. -/
theorem clock_of_grantStep {o : BindingOp} {ans : BindingAns o} (h : GrantStep d w o ans w') :
    w.ports.clock ≤ w'.ports.clock := by
  cases h with
  | port _ hclock _ => exact hclock
  | _ => exact Int.le_refl _

/-- A port leaves the single-use records as they are. -/
theorem singleUse_of_port {o : Op} {ans : Ans o}
    (h : GrantStep d w (.port o) ans w') : w'.singleUse = w.singleUse := by
  cases h <;> rfl

end Steps

/-! ## Keys -/

section Keys

variable {d : Deployment}

theorem digest_of_nonceKey {nonce nonce' : String} (h : nonceKey d nonce = nonceKey d nonce') :
    d.digest nonce = d.digest nonce' :=
  (String.append_right_inj _).mp h

/-- The keys of nonces and of markers begin differently. -/
theorem nonceKey_ne_marker (nonce : String) (ctx : AssertionContext) (claims : IdentityClaims) :
    nonceKey d nonce ≠ assertionMarkerKey d ctx claims := by
  have hfirst : ∀ rest rest' : String, "nonce:" ++ rest ≠ "assertion:" ++ rest' := by
    intro rest rest' heq
    have := congrArg String.toList heq
    simp at this
  unfold nonceKey assertionMarkerKey
  split
  · rw [String.append_assoc, String.append_assoc]
    exact hfirst _ _
  · rw [String.append_assoc, String.append_assoc, String.append_assoc]
    exact hfirst _ _

end Keys

/-! ## The ledger -/

/-- Call `c` has performed `o` and got the answer. -/
def Did (m : GrantMoment) (c : ℕ) (o : BindingOp) (ans : BindingAns o) : Prop :=
  .performed c o ans ∈ m.history

section Did

variable {m : GrantMoment} {c c' : ℕ} {o o' : BindingOp} {ans : BindingAns o}
variable {ans' : BindingAns o'} {w : BindingWorld}

theorem did_performed :
    Did (m.performed c o ans w) c' o' ans' ↔
      (c' = c ∧ (⟨o', ans'⟩ : Performed BindingAns) = ⟨o, ans⟩) ∨ Did m c' o' ans' := by
  unfold Did
  rw [Moment.performed_history, List.mem_cons]
  refine or_congr ⟨?_, ?_⟩ Iff.rfl
  · intro heq
    cases heq
    exact ⟨rfl, rfl⟩
  · rintro ⟨rfl, heq⟩
    cases heq
    rfl

theorem Did.later (h : Did m c' o' ans') : Did (m.performed c o ans w) c' o' ans' :=
  did_performed.mpr (.inr h)

theorem did_begin {request : GrantRequest} :
    Did (m.begin c request) c' o' ans' ↔ Did m c' o' ans' := by
  simp [Did]

theorem did_ended : Did (m.ended c) c' o' ans' ↔ Did m c' o' ans' := by
  simp [Did]

theorem did_of_past (h : ⟨o, ans⟩ ∈ m.past c) : Did m c o ans := (Moment.mem_past m c o ans).mp h

end Did

/-- What the history and the store say of each other about one key. -/
structure KeyLedger (d : Deployment) (m : GrantMoment) (key : String) : Prop where
  minted : ∀ c e ans, Did m c (.putSingleUse key e) ans →
    ∃ raw, Did m c (.port .randomToken) raw ∧ nonceKey d raw = key
  filed : ∀ e, m.world.singleUse.lookup key = some e →
    ∃ c e' ans, Did m c (.putSingleUse key e') ans
  burned : ∀ c, Did m c (.takeSingleUse key) (.ok true) →
    m.world.singleUse.lookup key = none ∧ ∃ c' e ans, Did m c' (.putSingleUse key e) ans
  once : ∀ c c', Did m c (.takeSingleUse key) (.ok true) →
    Did m c' (.takeSingleUse key) (.ok true) → c = c'
  held : ∀ c e, Did m c (.putSingleUse key e) (.ok true) →
    (∀ c' ans, ¬ Did m c' (.takeSingleUse key) ans) →
    e ≤ m.world.ports.clock ∨ m.world.singleUse.lookup key = some e

/-- The operation is about the key. -/
def BindingOp.Touches (key : String) : BindingOp → Prop
  | .port _ => False
  | .putSingleUse key' _ => key' = key
  | .takeSingleUse key' => key' = key

namespace KeyLedger

variable {d : Deployment} {m : GrantMoment} {key : String} {c : ℕ} {w : BindingWorld}

/-- An operation that is not about the key, and leaves its record, keeps its ledger. -/
theorem frame (h : KeyLedger d m key) {o : BindingOp} {ans : BindingAns o}
    (ho : ¬ o.Touches key) (hsame : w.singleUse.lookup key = m.world.singleUse.lookup key)
    (hclock : m.world.ports.clock ≤ w.ports.clock) : KeyLedger d (m.performed c o ans w) key := by
  have hput : ∀ {c' e ans'}, Did (m.performed c o ans w) c' (.putSingleUse key e) ans' →
      Did m c' (.putSingleUse key e) ans' := by
    intro c' e ans' hdid
    obtain ⟨-, heq⟩ | hdid := did_performed.mp hdid
    · cases heq
      exact absurd rfl ho
    · exact hdid
  have htake : ∀ {c' ans'}, Did (m.performed c o ans w) c' (.takeSingleUse key) ans' →
      Did m c' (.takeSingleUse key) ans' := by
    intro c' ans' hdid
    obtain ⟨-, heq⟩ | hdid := did_performed.mp hdid
    · cases heq
      exact absurd rfl ho
    · exact hdid
  constructor
  · intro c' e ans' hdid
    obtain ⟨raw, hraw, hkey⟩ := h.minted c' e ans' (hput hdid)
    exact ⟨raw, hraw.later, hkey⟩
  · intro e hlookup
    obtain ⟨c', e', ans', hdid⟩ := h.filed e (hsame ▸ hlookup)
    exact ⟨c', e', ans', hdid.later⟩
  · intro c' hdid
    obtain ⟨hnone, c'', e, ans', hdid⟩ := h.burned c' (htake hdid)
    exact ⟨hsame.trans hnone, c'', e, ans', hdid.later⟩
  · exact fun c₁ c₂ h₁ h₂ => h.once c₁ c₂ (htake h₁) (htake h₂)
  · intro c' e hdid hkept
    obtain hlapsed | hlookup := h.held c' e (hput hdid) fun c'' ans' hdid => hkept c'' ans' hdid.later
    · exact .inl (Int.le_trans hlapsed hclock)
    · exact .inr (hsame.trans hlookup)

/-- The first claim of a key that nobody has claimed. -/
theorem put (h : KeyLedger d m key) {raw : String} {e : Instant} {ans : Answer Bool}
    (hraw : Did m c (.port .randomToken) raw) (hkey : nonceKey d raw = key)
    (hfresh : ∀ c' e' ans', ¬ Did m c' (.putSingleUse key e') ans')
    (hdone : w.singleUse.lookup key = some e ∨
      w.singleUse.lookup key = m.world.singleUse.lookup key ∧ ans ≠ .ok true) :
    KeyLedger d (m.performed c (.putSingleUse key e) ans w) key := by
  have hnoTake : ∀ {c'}, ¬ Did m c' (.takeSingleUse key) (.ok true) := by
    intro c' hdid
    obtain ⟨-, c'', e', ans', hput⟩ := h.burned c' hdid
    exact hfresh c'' e' ans' hput
  have htake : ∀ {c'}, ¬ Did (m.performed c (.putSingleUse key e) ans w) c' (.takeSingleUse key)
      (.ok true) := by
    intro c' hdid
    obtain ⟨-, heq⟩ | hdid := did_performed.mp hdid
    · cases heq
    · exact hnoTake hdid
  have hself : Did (m.performed c (.putSingleUse key e) ans w) c (.putSingleUse key e) ans :=
    did_performed.mpr (.inl ⟨rfl, rfl⟩)
  constructor
  · intro c' e' ans' hdid
    obtain ⟨rfl, -⟩ | hdid := did_performed.mp hdid
    · exact ⟨raw, hraw.later, hkey⟩
    · exact absurd hdid (hfresh c' e' ans')
  · exact fun _ _ => ⟨c, e, ans, hself⟩
  · exact fun c' hdid => absurd hdid htake
  · exact fun c' _ hdid _ => absurd hdid htake
  · intro c' e' hdid _
    obtain ⟨-, heq⟩ | hdid := did_performed.mp hdid
    · cases heq
      obtain hlookup | ⟨-, hne⟩ := hdone
      · exact .inr hlookup
      · exact absurd rfl hne
    · exact absurd hdid (hfresh c' e' _)

/-- A burn, whether or not it finds the record. -/
theorem take (h : KeyLedger d m key) {ans : Answer Bool}
    (hdone : (∃ e, m.world.singleUse.lookup key = some e) ∧ w.singleUse.lookup key = none ∨
      w.singleUse.lookup key = m.world.singleUse.lookup key ∧ ans ≠ .ok true) :
    KeyLedger d (m.performed c (.takeSingleUse key) ans w) key := by
  have hput : ∀ {c' e ans'},
      Did (m.performed c (.takeSingleUse key) ans w) c' (.putSingleUse key e) ans' →
      Did m c' (.putSingleUse key e) ans' := by
    intro c' e ans' hdid
    obtain ⟨-, heq⟩ | hdid := did_performed.mp hdid
    · cases heq
    · exact hdid
  constructor
  · intro c' e ans' hdid
    obtain ⟨raw, hraw, hkey⟩ := h.minted c' e ans' (hput hdid)
    exact ⟨raw, hraw.later, hkey⟩
  · intro e hlookup
    have hbefore : ∃ e', m.world.singleUse.lookup key = some e' := by
      obtain ⟨hthere, -⟩ | ⟨hsame, -⟩ := hdone
      · exact hthere
      · exact ⟨e, hsame.symm.trans hlookup⟩
    obtain ⟨e', hlookup'⟩ := hbefore
    obtain ⟨c', e'', ans', hdid⟩ := h.filed e' hlookup'
    exact ⟨c', e'', ans', hdid.later⟩
  · intro c' hdid
    obtain ⟨-, heq⟩ | hdid := did_performed.mp hdid
    · cases heq
      obtain ⟨⟨e, hlookup⟩, hgone⟩ | ⟨-, hne⟩ := hdone
      · obtain ⟨c'', e', ans', hdid⟩ := h.filed e hlookup
        exact ⟨hgone, c'', e', ans', hdid.later⟩
      · exact absurd rfl hne
    · obtain ⟨hnone, c'', e, ans', hdid⟩ := h.burned c' hdid
      refine ⟨?_, c'', e, ans', hdid.later⟩
      obtain ⟨-, hgone⟩ | ⟨hsame, -⟩ := hdone
      · exact hgone
      · exact hsame.trans hnone
  · -- a second burn finds nothing: the first one left no record
    have hfirst : ∀ {c'}, Did m c' (.takeSingleUse key) (.ok true) → ans = .ok true → False := by
      intro c' hdid hans
      obtain ⟨hnone, -⟩ := h.burned c' hdid
      obtain ⟨⟨e, hlookup⟩, -⟩ | ⟨-, hne⟩ := hdone
      · exact absurd (hnone.symm.trans hlookup) (by simp)
      · exact hne hans
    intro c₁ c₂ h₁ h₂
    obtain ⟨hc₁, heq₁⟩ | hold₁ := did_performed.mp h₁
    · obtain ⟨hc₂, -⟩ | hold₂ := did_performed.mp h₂
      · exact hc₁.trans hc₂.symm
      · cases heq₁
        exact (hfirst hold₂ rfl).elim
    · obtain ⟨-, heq₂⟩ | hold₂ := did_performed.mp h₂
      · cases heq₂
        exact (hfirst hold₁ rfl).elim
      · exact h.once c₁ c₂ hold₁ hold₂
  · intro c' e hdid hkept
    exact absurd (did_performed.mpr (.inl ⟨rfl, rfl⟩)) (hkept c ans)

/-- Time passes, and a record that has expired may go. -/
theorem drift (h : KeyLedger d m key) (hclock : m.world.ports.clock ≤ w.ports.clock)
    (hsame : w.singleUse.lookup key = m.world.singleUse.lookup key ∨
      w.singleUse.lookup key = none ∧
        ∀ e, m.world.singleUse.lookup key = some e → e ≤ w.ports.clock) :
    KeyLedger d (m.drifted w) key := by
  constructor
  · exact h.minted
  · intro e hlookup
    obtain hsame | ⟨hnone, -⟩ := hsame
    · exact h.filed e (hsame ▸ hlookup)
    · exact absurd (hnone.symm.trans hlookup) (by simp)
  · intro c' hdid
    obtain ⟨hnone, hput⟩ := h.burned c' hdid
    refine ⟨?_, hput⟩
    obtain hsame | ⟨hgone, -⟩ := hsame
    · exact hsame.trans hnone
    · exact hgone
  · exact h.once
  · intro c' e hdid hkept
    obtain hlapsed | hlookup := h.held c' e hdid hkept
    · exact .inl (Int.le_trans hlapsed hclock)
    · obtain hsame | ⟨-, hlapsed⟩ := hsame
      · exact .inr (hsame.trans hlookup)
      · exact .inl (hlapsed e hlookup)

end KeyLedger

/-- What the history and the store say of each other about nonces. -/
structure NonceLedger (d : Deployment) (m : GrantMoment) : Prop where
  drawn : ∀ c raw, Did m c (.port .randomToken) raw → raw ∈ m.world.ports.tokens
  drawnOnce : ∀ c c' raw raw', Did m c (.port .randomToken) raw →
    Did m c' (.port .randomToken) raw' → d.digest raw = d.digest raw' → c = c'
  keys : ∀ nonce, KeyLedger d m (nonceKey d nonce)

namespace NonceLedger

variable {d : Deployment} {g : GrantSettings} {m : GrantMoment} {c : ℕ} {w : BindingWorld}

/-- What a call that mints knows of the key it claims: nobody has claimed it. -/
theorem unclaimed (h : NonceLedger d m) {nonce : String}
    (hdrawn : ⟨.port .randomToken, nonce⟩ ∈ m.past c) (hports : ∀ e ∈ m.past c, e.1.IsPort)
    (c' : ℕ) (e : Instant) (ans : Answer Bool) :
    ¬ Did m c' (.putSingleUse (nonceKey d nonce) e) ans := by
  intro hput
  obtain ⟨raw, hraw, hkey⟩ := (h.keys nonce).minted c' e ans hput
  obtain rfl := h.drawnOnce c' c raw nonce hraw (did_of_past hdrawn) (digest_of_nonceKey hkey)
  exact hports _ ((Moment.mem_past m c' _ _).mpr hput)

/-- An operation that draws no text adds no draw. -/
theorem draws_of (h : NonceLedger d m) {o : BindingOp} {ans : BindingAns o}
    (ho : ∀ raw : String, (⟨.port .randomToken, raw⟩ : Performed BindingAns) ≠ ⟨o, ans⟩)
    (htokens : w.ports.tokens = m.world.ports.tokens)
    (hkeys : ∀ nonce, KeyLedger d (m.performed c o ans w) (nonceKey d nonce)) :
    NonceLedger d (m.performed c o ans w) := by
  have hdrew : ∀ {c' raw}, Did (m.performed c o ans w) c' (.port .randomToken) raw →
      Did m c' (.port .randomToken) raw := by
    intro c' raw hdid
    obtain ⟨-, heq⟩ | hdid := did_performed.mp hdid
    · exact absurd heq (ho raw)
    · exact hdid
  refine ⟨?_, ?_, hkeys⟩
  · intro c' raw hdid
    rw [Moment.performed_world, htokens]
    exact h.drawn c' raw (hdrew hdid)
  · exact fun c₁ c₂ raw₁ raw₂ h₁ h₂ => h.drawnOnce c₁ c₂ raw₁ raw₂ (hdrew h₁) (hdrew h₂)

/-- A drawn text is new. -/
theorem drew (h : NonceLedger d m) {raw : String}
    (hfresh : d.digest raw ∉ m.world.ports.tokens.map d.digest) :
    NonceLedger d (m.performed c (.port .randomToken) raw
      { m.world with ports := { m.world.ports with tokens := raw :: m.world.ports.tokens } }) := by
  have hnew : ∀ {c' raw'}, Did m c' (.port .randomToken) raw' → d.digest raw ≠ d.digest raw' := by
    intro c' raw' hdid hdigest
    exact hfresh (List.mem_map.mpr ⟨raw', h.drawn c' raw' hdid, hdigest.symm⟩)
  refine ⟨?_, ?_, fun nonce => (h.keys nonce).frame (fun h => h) rfl (Int.le_refl _)⟩
  · intro c' raw' hdid
    obtain ⟨-, heq⟩ | hdid := did_performed.mp hdid
    · cases heq
      exact List.mem_cons_self ..
    · exact List.mem_cons_of_mem _ (h.drawn c' raw' hdid)
  · intro c₁ c₂ raw₁ raw₂ h₁ h₂ hdigest
    obtain ⟨hc₁, heq₁⟩ | hold₁ := did_performed.mp h₁
    · obtain ⟨hc₂, -⟩ | hold₂ := did_performed.mp h₂
      · exact hc₁.trans hc₂.symm
      · cases heq₁
        exact absurd hdigest (hnew hold₂)
    · obtain ⟨-, heq₂⟩ | hold₂ := did_performed.mp h₂
      · cases heq₂
        exact absurd hdigest.symm (hnew hold₁)
      · exact h.drawnOnce c₁ c₂ raw₁ raw₂ hold₁ hold₂ hdigest

/-- A claim by a call that complies. -/
theorem put (h : NonceLedger d m) {request : GrantRequest} {key : String} {e : Instant}
    {ans : Answer Bool} (hready : GrantReady d g request (m.past c) (.putSingleUse key e))
    (hports : w.ports = m.world.ports)
    (hother : ∀ key', key' ≠ key → w.singleUse.lookup key' = m.world.singleUse.lookup key')
    (hdone : w.singleUse.lookup key = some e ∨
      w.singleUse.lookup key = m.world.singleUse.lookup key ∧ ans ≠ .ok true) :
    NonceLedger d (m.performed c (.putSingleUse key e) ans w) := by
  refine h.draws_of (fun raw heq => by cases heq) (by rw [hports]) fun nonce => ?_
  by_cases hkey : nonceKey d nonce = key
  · subst hkey
    cases request with
    | exchange req =>
      obtain ⟨claims, ctx, -, -, hmarker⟩ := hready
      exact absurd hmarker (nonceKey_ne_marker nonce ctx claims)
    | mintNonce =>
      obtain ⟨raw, hkey, hdrawn, hall⟩ := hready
      have hfresh := h.unclaimed hdrawn hall
      rw [← hkey] at hfresh
      exact (h.keys nonce).put (did_of_past hdrawn) hkey.symm hfresh hdone
  · refine (h.keys nonce).frame (fun htouch => hkey htouch.symm) (hother _ hkey) ?_
    rw [hports]

/-- A burn. -/
theorem take (h : NonceLedger d m) {key : String} {ans : Answer Bool}
    (hports : w.ports = m.world.ports)
    (hother : ∀ key', key' ≠ key → w.singleUse.lookup key' = m.world.singleUse.lookup key')
    (hdone : (∃ e, m.world.singleUse.lookup key = some e) ∧ w.singleUse.lookup key = none ∨
      w.singleUse.lookup key = m.world.singleUse.lookup key ∧ ans ≠ .ok true) :
    NonceLedger d (m.performed c (.takeSingleUse key) ans w) := by
  refine h.draws_of (fun raw heq => by cases heq) (by rw [hports]) fun nonce => ?_
  by_cases hkey : nonceKey d nonce = key
  · subst hkey
    exact (h.keys nonce).take hdone
  · refine (h.keys nonce).frame (fun htouch => hkey htouch.symm) (hother _ hkey) ?_
    rw [hports]

/-- Every operation of a call that complies keeps the ledger. -/
theorem performs (h : NonceLedger d m) {request : GrantRequest} {o : BindingOp}
    {ans : BindingAns o} (hready : GrantReady d g request (m.past c) o)
    (hstep : GrantStep d m.world o ans w) : NonceLedger d (m.performed c o ans w) := by
  cases hstep with
  | drew raw hfresh => exact h.drew hfresh
  | @port o ans ports hundrawn hclock htokens =>
    refine h.draws_of (fun raw heq => ?_) htokens fun nonce =>
      (h.keys nonce).frame (fun h => h) rfl hclock
    cases heq
    exact absurd hundrawn (by simp [drawOf])
  | claimed hlapsed =>
    exact h.put hready rfl (fun key' hne => AList.lookup_insert_ne hne)
      (.inl (AList.lookup_insert _))
  | notClaimed hrefused => exact h.put hready rfl (fun _ _ => rfl) (.inr ⟨rfl, hrefused⟩)
  | burned hhere =>
    exact h.take rfl (fun key' hne => AList.lookup_erase_ne hne)
      (.inl ⟨⟨_, hhere⟩, AList.lookup_erase _ _⟩)
  | notBurned hrefused => exact h.take rfl (fun _ _ => rfl) (.inr ⟨rfl, hrefused⟩)

/-- The world moves on its own. -/
theorem drifted (h : NonceLedger d m) {k : BindingDrift}
    (hdrift : BindingWorld.drift k m.world = some w) : NonceLedger d (m.drifted w) := by
  cases k with
  | ports k =>
    obtain ⟨ports, hports, rfl⟩ := Option.map_eq_some_iff.mp hdrift
    have hshrinks := (shrinks_of_drift hports).1
    refine ⟨?_, h.drawnOnce, fun nonce => (h.keys nonce).drift hshrinks.clock (.inl rfl)⟩
    intro c raw hdid
    rw [Moment.drifted_world, hshrinks.tokens]
    exact h.drawn c raw hdid
  | reclaim key =>
    simp only [BindingWorld.drift] at hdrift
    split at hdrift
    · rename_i e hlookup
      split at hdrift
      · rename_i hlapsed
        obtain rfl := Option.some.inj hdrift
        refine ⟨h.drawn, h.drawnOnce, fun nonce => (h.keys nonce).drift (Int.le_refl _) ?_⟩
        by_cases hkey : nonceKey d nonce = key
        · subst hkey
          refine .inr ⟨AList.lookup_erase _ _, fun e' hlookup' => ?_⟩
          obtain rfl : e = e' := Option.some.inj (hlookup.symm.trans hlookup')
          exact hlapsed
        · exact .inl (AList.lookup_erase_ne hkey)
      · exact absurd hdrift (by simp)
    · exact absurd hdrift (by simp)

/-- The ledger speaks of operations and the world alone. -/
theorem same (h : NonceLedger d m) {m' : GrantMoment}
    (hdid : ∀ {c o} {ans : BindingAns o}, Did m' c o ans ↔ Did m c o ans)
    (hworld : m'.world = m.world) : NonceLedger d m' := by
  refine ⟨?_, ?_, fun nonce => ⟨?_, ?_, ?_, ?_, ?_⟩⟩ <;> simp only [hdid, hworld]
  · exact h.drawn
  · exact h.drawnOnce
  · exact (h.keys nonce).minted
  · exact (h.keys nonce).filed
  · exact (h.keys nonce).burned
  · exact (h.keys nonce).once
  · exact (h.keys nonce).held

end NonceLedger

/-! ## What a call has earned -/

/-- A call that has touched a record has passed the checks, and one that has looked its user up
is past binding. -/
structure Earned (d : Deployment) (g : GrantSettings) (m : GrantMoment) : Prop where
  checked : ∀ c req, .began c (.exchange req) ∈ m.history →
    ∀ e ∈ m.past c, ¬ e.1.IsPort →
      ∃ claims ctx expiresAt, Checked d g req (m.past c) claims ctx expiresAt
  bound : ∀ c req externalId provider ans, .began c (.exchange req) ∈ m.history →
    ⟨.port (.getUserByExternalId externalId provider), ans⟩ ∈ m.past c →
      ∃ claims ctx expiresAt, Bound d g req (m.past c) claims ctx expiresAt
  took : ∀ c key ans, ⟨.takeSingleUse key, ans⟩ ∈ m.past c →
    ∃ req claims ctx expiresAt nonce, .began c (.exchange req) ∈ m.history ∧
      Checked d g req (m.past c) claims ctx expiresAt ∧ claims.usableNonce = some nonce ∧
      key = nonceKey d nonce

section Earned

variable {d : Deployment} {g : GrantSettings} {m : GrantMoment} {c : ℕ} {w : BindingWorld}

theorem Earned.performs (h : Earned d g m) {request : GrantRequest} {o : BindingOp}
    {ans : BindingAns o} (hrunning : m.Running c request)
    (hready : GrantReady d g request (m.past c) o) : Earned d g (m.performed c o ans w) := by
  constructor
  · intro c' req hbegan e he hport
    have hasked : .began c' (.exchange req) ∈ m.history := by simpa using hbegan
    by_cases hc : c' = c
    · subst hc
      obtain rfl := (hrunning.asked _).mp hasked
      rw [Moment.past_performed_self] at he ⊢
      obtain rfl | he := List.mem_cons.mp he
      · cases o with
        | port o => exact absurd trivial hport
        | putSingleUse key expiresAt =>
          obtain ⟨claims, ctx, hchecked, -⟩ := hready
          exact ⟨claims, ctx, expiresAt, hchecked.cons _⟩
        | takeSingleUse key =>
          obtain ⟨req', claims, ctx, expiresAt, nonce, hreq, hchecked, -⟩ := hready
          cases hreq
          exact ⟨claims, ctx, expiresAt, hchecked.cons _⟩
      · obtain ⟨claims, ctx, expiresAt, hchecked⟩ := h.checked c' req hasked e he hport
        exact ⟨claims, ctx, expiresAt, hchecked.cons _⟩
    · rw [Moment.past_performed_other _ (Ne.symm hc)] at he ⊢
      exact h.checked c' req hasked e he hport
  · intro c' req externalId provider found hbegan he
    have hasked : .began c' (.exchange req) ∈ m.history := by simpa using hbegan
    by_cases hc : c' = c
    · subst hc
      obtain rfl := (hrunning.asked _).mp hasked
      rw [Moment.past_performed_self] at he ⊢
      obtain heq | he := List.mem_cons.mp he
      · cases heq
        obtain ⟨req', claims, ctx, expiresAt, hreq, hbound⟩ := hready
        cases hreq
        exact ⟨claims, ctx, expiresAt, hbound.cons _⟩
      · obtain ⟨claims, ctx, expiresAt, hbound⟩ :=
          h.bound c' req externalId provider found hasked he
        exact ⟨claims, ctx, expiresAt, hbound.cons _⟩
    · rw [Moment.past_performed_other _ (Ne.symm hc)] at he ⊢
      exact h.bound c' req externalId provider found hasked he
  · intro c' key found he
    by_cases hc : c' = c
    · subst hc
      rw [Moment.past_performed_self] at he ⊢
      obtain heq | he := List.mem_cons.mp he
      · cases heq
        obtain ⟨req, claims, ctx, expiresAt, nonce, rfl, hchecked, hnonce, hkey⟩ := hready
        exact ⟨req, claims, ctx, expiresAt, nonce, by simp [hrunning.asked], hchecked.cons _, hnonce,
          hkey⟩
      · obtain ⟨req, claims, ctx, expiresAt, nonce, hbegan, hchecked, hrest⟩ := h.took c' key found he
        exact ⟨req, claims, ctx, expiresAt, nonce, by simp [hbegan], hchecked.cons _, hrest⟩
    · rw [Moment.past_performed_other _ (Ne.symm hc)] at he ⊢
      obtain ⟨req, claims, ctx, expiresAt, nonce, hbegan, hrest⟩ := h.took c' key found he
      exact ⟨req, claims, ctx, expiresAt, nonce, by simp [hbegan], hrest⟩

theorem Earned.begins (h : Earned d g m) {request : GrantRequest} (hunseen : m.Unseen c) :
    Earned d g (m.begin c request) := by
  have hold : ∀ {c' req e}, .began c' (.exchange req) ∈ (m.begin c request).history →
      e ∈ m.past c' → .began c' (.exchange req) ∈ m.history := by
    intro c' req e hbegan he
    obtain heq | hbegan := List.mem_cons.mp hbegan
    · cases heq
      rw [hunseen.past] at he
      exact absurd he (by simp)
    · exact hbegan
  constructor
  · exact fun c' req hbegan e he hport => h.checked c' req (hold hbegan he) e he hport
  · exact fun c' req externalId provider found hbegan he =>
      h.bound c' req externalId provider found (hold hbegan he) he
  · intro c' key found he
    obtain ⟨req, claims, ctx, expiresAt, nonce, hbegan, hrest⟩ := h.took c' key found he
    exact ⟨req, claims, ctx, expiresAt, nonce, List.mem_cons_of_mem _ hbegan, hrest⟩

theorem Earned.ended (h : Earned d g m) : Earned d g (m.ended c) := by
  constructor
  · intro c' req hbegan
    exact h.checked c' req (by simpa using hbegan)
  · intro c' req externalId provider found hbegan
    exact h.bound c' req externalId provider found (by simpa using hbegan)
  · intro c' key found he
    obtain ⟨req, claims, ctx, expiresAt, nonce, hbegan, hrest⟩ := h.took c' key found he
    exact ⟨req, claims, ctx, expiresAt, nonce, List.mem_cons_of_mem _ hbegan, hrest⟩

end Earned

/-- The ledger of nonces and what calls have earned, kept by every step of the grants. -/
def nonceProtocol (d : Deployment) (g : GrantSettings) :
    Protocol (bindingSemantics d) (GrantReady d g) where
  inv m := NonceLedger d m ∧ Earned d g m
  allowed _ _ _ _ := True
  begins h hunseen := ⟨h.1.same did_begin rfl, h.2.begins hunseen⟩
  performs h hrunning hready _ hex :=
    ⟨h.1.performs hready (grantStep_of_exec hex), h.2.performs hrunning hready⟩
  ends h _ := ⟨h.1.same did_ended rfl, h.2.ended⟩
  drifts h hdrift := ⟨h.1.drifted hdrift, h.2.checked, h.2.bound, h.2.took⟩

theorem nonces_start (d : Deployment) (g : GrantSettings) (clock : Instant) :
    (nonceProtocol d g).inv (GrantPool.start clock).toMoment := by
  have hnothing : ∀ {c o} {ans : BindingAns o}, ¬ Did (GrantPool.start clock).toMoment c o ans := by
    simp [Did, GrantPool.start, Pool.initial]
  refine ⟨⟨?_, ?_, fun nonce => ⟨?_, ?_, ?_, ?_, ?_⟩⟩, ?_, ?_, ?_⟩
  · exact fun _ _ hdid => absurd hdid hnothing
  · exact fun _ _ _ _ hdid => absurd hdid hnothing
  · exact fun _ _ _ hdid => absurd hdid hnothing
  · simp [GrantPool.start, Pool.initial, BindingWorld.empty]
  · exact fun _ hdid => absurd hdid hnothing
  · exact fun _ _ hdid => absurd hdid hnothing
  · exact fun _ _ hdid => absurd hdid hnothing
  · simp [GrantPool.start, Pool.initial]
  · simp [GrantPool.start, Pool.initial]
  · simp [GrantPool.start, Pool.initial, Moment.past]

/-- **In every run of the grants, the ledger holds at the end.** -/
theorem nonces_of_run {d : Deployment} {g : GrantSettings} {meets : GrantPool → GrantAct → Prop}
    {clock : Instant} {p : GrantPool} {as : List GrantAct}
    (hrun : (grants d g).Run meets (GrantPool.start clock) as p) :
    NonceLedger d p.toMoment ∧ Earned d g p.toMoment :=
  (nonceProtocol d g).run grantBody_obeys (hrun.mono fun _ _ _ _ _ _ _ => trivial)
    (Disciplined.initial _) (nonces_start d g clock)

end OidcExchange
