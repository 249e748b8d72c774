import OidcExchange.Analysis.TokenSeparation
import OidcExchange.Program.OperatorGate

/-!
# Whom the gate admits

A mechanism whose checks a request passes names a subject. The gate admits the principal of the
first such mechanism and refuses when there is none, except where a token or a certificate names
the subject that is reserved for the shared secret: the principal fails its assertion.
-/

set_option autoImplicit false

namespace OidcExchange

open Storage

variable {Bytes : Type} {W : Wire Bytes} {S : SignatureLibrary Bytes}

/-! ## Steps that do not panic -/

theorem bind_ne_panic {ε α β : Type} {x : Except (Fault ε) α} {f : α → Except (Fault ε) β}
    (hx : x ≠ .error .panic) (hf : ∀ a, f a ≠ .error .panic) : (x >>= f) ≠ .error .panic := by
  cases x with
  | ok a => exact hf a
  | error e =>
    intro h
    exact hx (congrArg Except.error (Except.error.inj h))

theorem orInvalid_ne_panic {α : Type} (part : Option α) : orInvalid part ≠ .error .panic := by
  cases part <;> simp [orInvalid]

theorem refuseUnless_ne_panic (condition : Bool) : refuseUnless condition ≠ .error .panic := by
  cases condition <;> simp [refuseUnless]

/-- No key manager of the gate panics. -/
theorem OperatorKeys.verify_ne_panic (keys : OperatorKeys) (reading : Reading Bytes)
    (payload signature : Bytes) : keys.verify S reading payload signature ≠ .error .panic := by
  cases keys with
  | «local» =>
    simp only [verify, localVerify]
    split <;> simp [keyFailure]
  | kms algorithm =>
    simp only [verify]
    cases reading.publicKey with
    | error e => simp
    | ok spki =>
      simp only [verifyLocally]
      split
      · cases S.readKey algorithm spki with
        | error e => simp [keyFailure]
        | ok readSignature =>
          dsimp only
          split <;> simp
      · simp [keyFailure]

/-! ## Asserted principals -/

theorem OperatorPrincipal.invariants_eq_true_iff (p : OperatorPrincipal) :
    p.invariants = true ↔
      p.id ≠ "" ∧ (p.id = unattributedOperatorId ↔ p.mechanism = .sharedSecret) := by
  rw [invariants, Bool.and_eq_true]
  refine and_congr (by simp) ?_
  rw [beq_iff_eq, Bool.eq_iff_iff, bne_iff_ne, bne_iff_ne, not_iff_not]
  exact Iff.comm

/-- A subject with a mechanism that may name it. -/
def NamesFairly (subject : String) (mechanism : OperatorAuthMechanism) : Prop :=
  subject = unattributedOperatorId ↔ mechanism = .sharedSecret

theorem asserted_of_fair {subject : String} {mechanism : OperatorAuthMechanism}
    (hnonempty : subject ≠ "") (hfair : NamesFairly subject mechanism) :
    asserted ⟨subject, mechanism⟩ = .ok ⟨subject, mechanism⟩ := by
  have hinvariants : (⟨subject, mechanism⟩ : OperatorPrincipal).invariants = true :=
    (OperatorPrincipal.invariants_eq_true_iff _).mpr ⟨hnonempty, hfair⟩
  rw [asserted, assertThat, if_pos hinvariants]
  rfl

theorem asserted_of_unfair {subject : String} {mechanism : OperatorAuthMechanism}
    (hunfair : ¬ NamesFairly subject mechanism) :
    asserted ⟨subject, mechanism⟩ = .error .panic := by
  have hinvariants : ¬ (⟨subject, mechanism⟩ : OperatorPrincipal).invariants = true :=
    fun h => hunfair ((OperatorPrincipal.invariants_eq_true_iff _).mp h).2
  rw [asserted, assertThat, if_neg hinvariants]
  rfl

/-! ## Tokens -/

namespace OperatorTokenAuthenticator

/-- A token that passes the checks, and its claims. -/
structure Verifies (W : Wire Bytes) (a : OperatorTokenAuthenticator Bytes) (nowSecs : ℕ)
    (token : String) (claims : Table String Value) : Prop where
  decoded : decode W token = some (a.algorithm, claims)
  signed : ∃ header payload segment signature, parts token = some (header, payload, segment) ∧
    W.decode segment = some signature ∧
    a.keys.verify (W.asBytes (header ++ "." ++ payload)) signature = .ok true
  issuer : (claims.lookup "iss").bind Value.asStr = some a.issuer
  audience : audMatches claims a.audience = true
  window : ∃ exp, (claims.lookup "exp").bind Value.asU64 = some exp ∧
    nowSecs < saturatingAdd exp.toNat operatorTokenClockSkewLeewaySecs ∧
    exp.toNat ≤ nowSecs + maxOperatorTokenTtlSecs + operatorTokenClockSkewLeewaySecs
  required : (claims.lookup a.requiredClaim).bind Value.asStr = some a.requiredValue

/-- The subject of a token, before the principal is asserted. -/
def subjectOfToken (W : Wire Bytes) (a : OperatorTokenAuthenticator Bytes) (nowSecs : ℕ)
    (token : String) : Authenticating String := do
  let (alg, claims) ← orInvalid (decode W token)
  refuseUnless (alg == a.algorithm)
  let (headerSeg, payloadSeg, signatureSeg) ← orInvalid (parts token)
  let signature ← orInvalid (W.decode signatureSeg)
  a.verifySignature W (headerSeg ++ "." ++ payloadSeg) signature
  refuseUnless ((claims.lookup "iss").bind Value.asStr == some a.issuer)
  refuseUnless (audMatches claims a.audience)
  checkWindow nowSecs claims
  a.subjectOf claims

variable {a : OperatorTokenAuthenticator Bytes} {nowSecs : ℕ} {token subject : String}
  {claims : Table String Value}

theorem authenticate_some (a : OperatorTokenAuthenticator Bytes) (nowSecs : ℕ) (token : String) :
    a.authenticate W nowSecs (some token) =
      a.subjectOfToken W nowSecs token >>= fun subject => asserted ⟨subject, .operatorToken⟩ := by
  simp only [authenticate, subjectOfToken, asserted, bind_assoc]

theorem verifySignature_eq_ok {signingInput : String} {signature : Bytes} :
    a.verifySignature W signingInput signature = .ok () ↔
      a.keys.verify (W.asBytes signingInput) signature = .ok true := by
  unfold verifySignature
  split
  · rename_i verified h
    rw [h, refuseUnless_eq_ok]
    simp
  · simp [*]
  · simp [*]

theorem checkWindow_eq_ok :
    checkWindow nowSecs claims = .ok () ↔
      ∃ exp, (claims.lookup "exp").bind Value.asU64 = some exp ∧
        nowSecs < saturatingAdd exp.toNat operatorTokenClockSkewLeewaySecs ∧
        exp.toNat ≤ nowSecs + maxOperatorTokenTtlSecs + operatorTokenClockSkewLeewaySecs := by
  unfold checkWindow
  cases hexp : (claims.lookup "exp").bind Value.asU64 with
  | none => simp [orInvalid, bind, Except.bind]
  | some exp =>
    by_cases hleft : nowSecs < saturatingAdd exp.toNat operatorTokenClockSkewLeewaySecs <;>
      simp [orInvalid, refuseUnless, hleft, bind, Except.bind]

theorem subjectOf_eq_ok :
    a.subjectOf claims = .ok subject ↔
      (claims.lookup a.requiredClaim).bind Value.asStr = some a.requiredValue ∧
        (claims.lookup "sub").bind Value.asStr = some subject ∧ subject ≠ "" := by
  unfold subjectOf
  by_cases hrequired : (claims.lookup a.requiredClaim).bind Value.asStr = some a.requiredValue
  · simp [refuseUnless, hrequired, orInvalid_eq_ok, bind, Except.bind, Option.filter_eq_some_iff]
  · simp [refuseUnless, hrequired, bind, Except.bind]

/-- The subject of a token is the one that its claims name, when it passes the checks. -/
theorem subjectOfToken_eq_ok :
    a.subjectOfToken W nowSecs token = .ok subject ↔
      ∃ claims, a.Verifies W nowSecs token claims ∧
        (claims.lookup "sub").bind Value.asStr = some subject ∧ subject ≠ "" := by
  constructor
  · intro h
    obtain ⟨⟨alg, claims⟩, hdecoded, h⟩ := ok_of_bind h
    obtain ⟨_, halg, h⟩ := ok_of_bind h
    obtain ⟨⟨header, payload, segment⟩, hparts, h⟩ := ok_of_bind h
    obtain ⟨signature, hsignature, h⟩ := ok_of_bind h
    obtain ⟨_, hverified, h⟩ := ok_of_bind h
    obtain ⟨_, hissuer, h⟩ := ok_of_bind h
    obtain ⟨_, haudience, h⟩ := ok_of_bind h
    obtain ⟨_, hwindow, h⟩ := ok_of_bind h
    obtain ⟨hrequired, hsubject⟩ := subjectOf_eq_ok.mp h
    obtain rfl : alg = a.algorithm := beq_iff_eq.mp (refuseUnless_eq_ok.mp halg)
    exact ⟨claims,
      { decoded := orInvalid_eq_ok.mp hdecoded
        signed := ⟨header, payload, segment, signature, orInvalid_eq_ok.mp hparts,
          orInvalid_eq_ok.mp hsignature, verifySignature_eq_ok.mp hverified⟩
        issuer := beq_iff_eq.mp (refuseUnless_eq_ok.mp hissuer)
        audience := refuseUnless_eq_ok.mp haudience
        window := checkWindow_eq_ok.mp hwindow
        required := hrequired }, hsubject⟩
  · rintro ⟨claims, h, hsubject⟩
    obtain ⟨header, payload, segment, signature, hparts, hsignature, hverified⟩ := h.signed
    have hdecoded := orInvalid_eq_ok.mpr h.decoded
    have halg := refuseUnless_eq_ok.mpr (beq_self_eq_true a.algorithm)
    have hissuer := refuseUnless_eq_ok.mpr (beq_iff_eq.mpr h.issuer)
    have hrest : a.subjectOf claims = .ok subject := subjectOf_eq_ok.mpr ⟨h.required, hsubject⟩
    simp only [subjectOfToken, hdecoded, halg, orInvalid_eq_ok.mpr hparts,
      orInvalid_eq_ok.mpr hsignature, verifySignature_eq_ok.mpr hverified, hissuer,
      refuseUnless_eq_ok.mpr h.audience, checkWindow_eq_ok.mpr h.window, hrest,
      bind, Except.bind]

/-- Reading the subject does not panic, when the keys do not. -/
theorem subjectOfToken_ne_panic
    (hkeys : ∀ payload signature, a.keys.verify payload signature ≠ .error .panic) :
    a.subjectOfToken W nowSecs token ≠ .error .panic := by
  have hsignature : ∀ signingInput signature,
      a.verifySignature W signingInput signature ≠ .error .panic := by
    intro signingInput signature
    unfold verifySignature
    split
    · exact refuseUnless_ne_panic _
    · rename_i h
      exact absurd h (hkeys _ _)
    · simp
  have hwindow : ∀ claims, checkWindow nowSecs claims ≠ .error .panic := fun claims =>
    bind_ne_panic (orInvalid_ne_panic _) fun _ =>
      bind_ne_panic (refuseUnless_ne_panic _) fun _ => refuseUnless_ne_panic _
  have hsubject : ∀ claims, a.subjectOf claims ≠ .error .panic := fun claims =>
    bind_ne_panic (refuseUnless_ne_panic _) fun _ => orInvalid_ne_panic _
  unfold subjectOfToken
  refine bind_ne_panic (orInvalid_ne_panic _) fun ⟨alg, claims⟩ => ?_
  refine bind_ne_panic (refuseUnless_ne_panic _) fun _ => ?_
  refine bind_ne_panic (orInvalid_ne_panic _) fun ⟨header, payload, segment⟩ => ?_
  refine bind_ne_panic (orInvalid_ne_panic _) fun signature => ?_
  refine bind_ne_panic (hsignature _ signature) fun _ => ?_
  refine bind_ne_panic (refuseUnless_ne_panic _) fun _ => ?_
  refine bind_ne_panic (refuseUnless_ne_panic _) fun _ => ?_
  exact bind_ne_panic (hwindow claims) fun _ => hsubject claims

end OperatorTokenAuthenticator

/-! ## Certificates -/

/-- A header that names a subject within the bounds. -/
structure CertifiesSubject (subjectHeader : String) (input : AuthInput) (subject : String) : Prop where
  named : ∃ value text, input.header subjectHeader = some value ∧ headerText value = some text ∧
    subject = String.ofList (trimChars text)
  nonempty : subject ≠ ""
  bounded : utf8Length subject.toList ≤ maxMtlsSubjectBytes

theorem mtlsSubject_eq_ok {subjectHeader : String} {input : AuthInput} {subject : String} :
    mtlsSubject subjectHeader input = .ok subject ↔
      CertifiesSubject subjectHeader input subject := by
  unfold mtlsSubject
  constructor
  · intro h
    split at h
    · exact nomatch h
    · rename_i value hvalue
      obtain ⟨text, htext, h⟩ := ok_of_bind h
      obtain ⟨_, hnonempty, h⟩ := ok_of_bind h
      obtain ⟨_, hbounded, h⟩ := ok_of_bind h
      obtain rfl := Except.ok.inj h
      have hnonempty := refuseUnless_eq_ok.mp hnonempty
      have hbounded := of_decide_eq_true (refuseUnless_eq_ok.mp hbounded)
      refine ⟨⟨value, text, hvalue, orInvalid_eq_ok.mp htext, rfl⟩, ?_, ?_⟩
      · intro hempty
        simp [String.ofList_eq_empty_iff.mp hempty] at hnonempty
      · rwa [String.toList_ofList]
  · rintro ⟨⟨value, text, hvalue, htext, rfl⟩, hnonempty, hbounded⟩
    have hsubject : (!(trimChars text).isEmpty) = true := by
      simpa [List.isEmpty_iff] using hnonempty
    rw [String.toList_ofList] at hbounded
    simp [hvalue, htext, orInvalid, refuseUnless, hsubject, hbounded, bind, Except.bind]

theorem mtlsSubject_ne_panic (subjectHeader : String) (input : AuthInput) :
    mtlsSubject subjectHeader input ≠ .error .panic := by
  unfold mtlsSubject
  split
  · simp
  · refine bind_ne_panic (orInvalid_ne_panic _) fun text => ?_
    refine bind_ne_panic (refuseUnless_ne_panic _) fun _ => ?_
    refine bind_ne_panic (refuseUnless_ne_panic _) fun _ => ?_
    simp
/-! ## One mechanism -/

/-- The subject that a mechanism names, when the request passes its checks. -/
def OperatorAuthenticator.Names (W : Wire Bytes) (S : SignatureLibrary Bytes)
    (reading : Reading Bytes) (input : AuthInput) (subject : String) :
    OperatorAuthenticator → Prop
  | .sharedSecret expected => input.bearer = some expected ∧ subject = unattributedOperatorId
  | .operatorToken keys issuer audience requiredClaim requiredValue =>
    ∃ token claims, input.bearer = some token ∧
      (keys.authenticator S reading issuer audience requiredClaim requiredValue).Verifies W
        reading.nowSecs token claims ∧
      (claims.lookup "sub").bind Value.asStr = some subject ∧ subject ≠ ""
  | .mtls subjectHeader => CertifiesSubject subjectHeader input subject

/-- A mechanism whose turn it is names a subject. -/
def Turn.Names (W : Wire Bytes) (S : SignatureLibrary Bytes) (turn : Turn Bytes)
    (input : AuthInput) (subject : String) : Prop :=
  turn.1.Names W S turn.2 input subject

/-- A reader that does not panic gives a subject, or a reason for none. -/
theorem asserted_or_refused {named : Authenticating String} {p : String → Prop}
    {mechanism : OperatorAuthMechanism} (hok : ∀ s, named = .ok s ↔ p s)
    (hpanic : named ≠ .error .panic) :
    (∃ s, p s ∧ (named >>= fun s => asserted ⟨s, mechanism⟩) = asserted ⟨s, mechanism⟩) ∨
      ((∀ s, ¬ p s) ∧
        ∃ reason, (named >>= fun s => asserted ⟨s, mechanism⟩) = .error (.error reason)) := by
  cases named with
  | ok s => exact Or.inl ⟨s, (hok s).mp rfl, rfl⟩
  | error fault =>
    cases fault with
    | panic => exact absurd rfl hpanic
    | error reason => exact Or.inr ⟨fun s hs => (nomatch (hok s).mpr hs), reason, rfl⟩

/-- **What a mechanism does**: it asserts the principal of the subject it names, or refuses. -/
theorem Turn.authenticate_cases (turn : Turn Bytes) (input : AuthInput) :
    (∃ s, turn.Names W S input s ∧
      turn.authenticate W S input = asserted ⟨s, turn.1.mechanism⟩) ∨
    ((∀ s, ¬ turn.Names W S input s) ∧
      ∃ reason, turn.authenticate W S input = .error (.error reason)) := by
  obtain ⟨mechanism, reading⟩ := turn
  cases mechanism with
  | sharedSecret expected =>
    simp only [Turn.Names, OperatorAuthenticator.Names, Turn.authenticate,
      OperatorAuthenticator.authenticate, authenticateSharedSecret]
    cases input.bearer with
    | none => exact Or.inr ⟨fun s hs => (by cases hs.1), .missingCredential, rfl⟩
    | some presented =>
      by_cases heq : presented = expected
      · have hasserted : asserted OperatorPrincipal.unattributed = .ok .unattributed :=
          asserted_of_fair (by decide) ⟨fun _ => rfl, fun _ => rfl⟩
        refine Or.inl ⟨_, ⟨congrArg some heq, rfl⟩, ?_⟩
        simp only [constantTimeEq, heq, beq_self_eq_true, if_true]
        exact hasserted.symm
      · refine Or.inr ⟨fun s hs => heq (Option.some.inj hs.1), .invalidCredential, ?_⟩
        simp [constantTimeEq, heq]
  | operatorToken keys issuer audience requiredClaim requiredValue =>
    simp only [Turn.Names, OperatorAuthenticator.Names, Turn.authenticate,
      OperatorAuthenticator.authenticate]
    cases input.bearer with
    | none =>
      refine Or.inr ⟨fun s hs => ?_, OperatorAuthFailureReason.missingCredential, rfl⟩
      obtain ⟨token, claims, hbearer, -⟩ := hs
      cases hbearer
    | some token =>
      rw [OperatorTokenAuthenticator.authenticate_some]
      refine asserted_or_refused (fun s => ?_)
        (OperatorTokenAuthenticator.subjectOfToken_ne_panic (keys.verify_ne_panic reading))
      rw [OperatorTokenAuthenticator.subjectOfToken_eq_ok]
      constructor
      · rintro ⟨claims, hverifies, hsubject⟩
        exact ⟨token, claims, rfl, hverifies, hsubject⟩
      · rintro ⟨token', claims, hbearer, hverifies, hsubject⟩
        obtain rfl := Option.some.inj hbearer
        exact ⟨claims, hverifies, hsubject⟩
  | mtls subjectHeader =>
    exact asserted_or_refused (fun s => mtlsSubject_eq_ok) (mtlsSubject_ne_panic _ _)

variable {turn : Turn Bytes} {input : AuthInput} {subject : String}

/-- Nobody is named by nothing. -/
theorem Turn.nonempty_of_names (h : turn.Names W S input subject) : subject ≠ "" := by
  obtain ⟨mechanism, reading⟩ := turn
  cases mechanism with
  | sharedSecret expected =>
    rw [h.2]
    decide
  | operatorToken keys issuer audience requiredClaim requiredValue =>
    obtain ⟨_, _, -, -, -, hnonempty⟩ := h
    exact hnonempty
  | mtls subjectHeader => exact h.nonempty

/-- A mechanism names one subject at most. -/
theorem Turn.names_unique {subject' : String} (h : turn.Names W S input subject)
    (h' : turn.Names W S input subject') : subject = subject' := by
  obtain ⟨mechanism, reading⟩ := turn
  cases mechanism with
  | sharedSecret expected => exact h.2.trans h'.2.symm
  | operatorToken keys issuer audience requiredClaim requiredValue =>
    obtain ⟨token, claims, hbearer, hverifies, hsubject, -⟩ := h
    obtain ⟨token', claims', hbearer', hverifies', hsubject', -⟩ := h'
    obtain rfl := Option.some.inj (hbearer.symm.trans hbearer')
    have hclaims := Option.some.inj (hverifies.decoded.symm.trans hverifies'.decoded)
    obtain rfl := (Prod.mk.inj hclaims).2
    exact Option.some.inj (hsubject.symm.trans hsubject')
  | mtls subjectHeader =>
    obtain ⟨⟨value, text, hvalue, htext, rfl⟩, -, -⟩ := h
    obtain ⟨⟨value', text', hvalue', htext', rfl⟩, -, -⟩ := h'
    obtain rfl := Option.some.inj (hvalue.symm.trans hvalue')
    obtain rfl := Option.some.inj (htext.symm.trans htext')
    rfl

/-- The reserved subject is not the name of a token's bearer or of a certificate; and the shared
secret names no other. -/
theorem Turn.fair_iff (h : turn.Names W S input subject) :
    NamesFairly subject turn.1.mechanism ↔
      (subject = unattributedOperatorId → turn.1.mechanism = .sharedSecret) := by
  refine ⟨Iff.mp, fun himp => ⟨himp, fun hshared => ?_⟩⟩
  obtain ⟨mechanism, reading⟩ := turn
  cases mechanism with
  | sharedSecret expected => exact h.2
  | operatorToken keys issuer audience requiredClaim requiredValue => exact nomatch hshared
  | mtls subjectHeader => exact nomatch hshared

/-- A mechanism accepts with the principal of the subject it names. -/
theorem Turn.names_of_accepts {principal : OperatorPrincipal}
    (h : turn.authenticate W S input = .ok principal) :
    turn.Names W S input principal.id ∧ principal.mechanism = turn.1.mechanism := by
  obtain ⟨s, hnames, hasserted⟩ | ⟨-, reason, hrefused⟩ := turn.authenticate_cases input
  · obtain ⟨_, -, heq⟩ := ok_of_bind (hasserted.symm.trans h)
    obtain rfl := Except.ok.inj heq
    exact ⟨hnames, rfl⟩
  · exact nomatch hrefused.symm.trans h

/-- A mechanism that names a subject fairly accepts. -/
theorem Turn.accepts_of_names (h : turn.Names W S input subject)
    (hfair : NamesFairly subject turn.1.mechanism) :
    turn.authenticate W S input = .ok ⟨subject, turn.1.mechanism⟩ := by
  obtain ⟨s, hnames, hasserted⟩ | ⟨hnameless, -⟩ := turn.authenticate_cases input
  · obtain rfl := Turn.names_unique h hnames
    exact hasserted.trans (asserted_of_fair (Turn.nonempty_of_names h) hfair)
  · exact absurd h (hnameless subject)

/-! ## The chain -/

/-- Nobody is named by a mechanism. -/
def Turn.Nameless (W : Wire Bytes) (S : SignatureLibrary Bytes) (input : AuthInput)
    (turn : Turn Bytes) : Prop :=
  ∀ s, ¬ turn.Names W S input s

/-- A chain in which somebody is named has a first mechanism that does. -/
theorem nameless_or_first (W : Wire Bytes) (S : SignatureLibrary Bytes) (input : AuthInput)
    (turns : List (Turn Bytes)) :
    (∀ turn ∈ turns, turn.Nameless W S input) ∨
      ∃ before turn after s, turns = before ++ turn :: after ∧
        (∀ e ∈ before, e.Nameless W S input) ∧ turn.Names W S input s := by
  induction turns with
  | nil => exact Or.inl (List.forall_mem_nil _)
  | cons turn rest ih =>
    by_cases hnameless : turn.Nameless W S input
    · obtain hall | ⟨before, first, after, s, rfl, hbefore, hnames⟩ := ih
      · exact Or.inl (List.forall_mem_cons.mpr ⟨hnameless, hall⟩)
      · exact Or.inr ⟨turn :: before, first, after, s, rfl,
          List.forall_mem_cons.mpr ⟨hnameless, hbefore⟩, hnames⟩
    · obtain ⟨s, hs⟩ := not_forall_not.mp hnameless
      exact Or.inr ⟨[], turn, rest, s, rfl, List.forall_mem_nil _, hs⟩

variable {before after : List (Turn Bytes)} {seen : Seen}

/-- Mechanisms that name nobody are passed over. -/
theorem tryInOrder_append (turns : List (Turn Bytes))
    (hbefore : ∀ e ∈ before, e.Nameless W S input) :
    ∃ seen', tryInOrder W S input seen (before ++ turns) = tryInOrder W S input seen' turns := by
  induction before generalizing seen with
  | nil => exact ⟨seen, rfl⟩
  | cons turn rest ih =>
    obtain ⟨hturn, hrest⟩ := List.forall_mem_cons.mp hbefore
    obtain ⟨s, hnames, -⟩ | ⟨-, reason, hrefused⟩ := turn.authenticate_cases input
    · exact absurd hnames (hturn s)
    · obtain ⟨seen', hseen'⟩ := @ih (seen.note reason) hrest
      refine ⟨seen', ?_⟩
      rw [List.cons_append, tryInOrder, hrefused]
      exact hseen'

/-- A chain in which nobody is named refuses. -/
theorem tryInOrder_nameless (hall : ∀ e ∈ before, e.Nameless W S input) :
    ∃ reason, tryInOrder W S input seen before = .error (.error reason) := by
  obtain ⟨seen', hseen'⟩ := @tryInOrder_append _ W S input _ seen [] hall
  rw [List.append_nil] at hseen'
  exact ⟨seen'.reason, hseen'⟩

/-- The first mechanism that names somebody decides. -/
theorem tryInOrder_first (hbefore : ∀ e ∈ before, e.Nameless W S input)
    (hnames : turn.Names W S input subject) :
    tryInOrder W S input seen (before ++ turn :: after) =
      asserted ⟨subject, turn.1.mechanism⟩ := by
  obtain ⟨seen', hseen'⟩ := @tryInOrder_append _ W S input _ seen (turn :: after) hbefore
  rw [hseen', tryInOrder]
  by_cases hfair : NamesFairly subject turn.1.mechanism
  · rw [Turn.accepts_of_names hnames hfair]
  · obtain ⟨s, hnames', hasserted⟩ | ⟨hnameless, -⟩ := turn.authenticate_cases input
    · obtain rfl := Turn.names_unique hnames hnames'
      rw [hasserted, asserted_of_unfair hfair]
    · exact absurd hnames (hnameless subject)

/-! ## The gate -/

/-- The gate answers every request, admits whom a mechanism of the chain accepts, and names nobody
but those whom the mechanism identifies. -/
structure AuthenticatesTotally (W : Wire Bytes) (S : SignatureLibrary Bytes)
    (gate : OperatorAuthGate) (readings : ℕ → Reading Bytes) (input : AuthInput) : Prop where
  answers : (∃ principal, gate.authenticate W S readings input = .ok principal) ∨
    ∃ reason, gate.authenticate W S readings input = .error (.error reason)
  accepts : (∃ principal, gate.authenticate W S readings input = .ok principal) ↔
    ∃ turn ∈ gate.turns readings, ∃ principal, turn.authenticate W S input = .ok principal
  named : ∀ principal, gate.authenticate W S readings input = .ok principal →
    principal.id ≠ "" ∧
      ∃ turn ∈ gate.turns readings, turn.authenticate W S input = .ok principal ∧
        (principal.id = unattributedOperatorId ↔ turn.1.mechanism = .sharedSecret)

/-- The first mechanism whose checks the request passes is the shared secret, or it names another
subject than the reserved one. -/
def FirstNamesUnreserved (W : Wire Bytes) (S : SignatureLibrary Bytes) (gate : OperatorAuthGate)
    (readings : ℕ → Reading Bytes) (input : AuthInput) : Prop :=
  ∀ before turn after subject, gate.turns readings = before ++ turn :: after →
    (∀ e ∈ before, e.Nameless W S input) → turn.Names W S input subject →
      subject = unattributedOperatorId → turn.1.mechanism = .sharedSecret

variable {gate : OperatorAuthGate} {readings : ℕ → Reading Bytes}

theorem AuthenticatesTotally.of_unreserved (h : FirstNamesUnreserved W S gate readings input) :
    AuthenticatesTotally W S gate readings input := by
  obtain hall | ⟨before, turn, after, s, hturns, hbefore, hnames⟩ :=
    nameless_or_first W S input (gate.turns readings)
  · -- Every mechanism refuses.
    have hgate : ∃ reason, gate.authenticate W S readings input = .error (.error reason) :=
      tryInOrder_nameless hall
    obtain ⟨reason, hgate⟩ := hgate
    refine ⟨Or.inr ⟨reason, hgate⟩, ⟨?_, ?_⟩, fun p hp => nomatch hgate.symm.trans hp⟩
    · rintro ⟨p, hp⟩
      exact nomatch hgate.symm.trans hp
    · rintro ⟨turn, hturn, p, hp⟩
      exact absurd (Turn.names_of_accepts hp).1 (hall turn hturn p.id)
  · -- The first that names somebody accepts.
    have hfair := (Turn.fair_iff hnames).mpr (h before turn after s hturns hbefore hnames)
    have hgate : gate.authenticate W S readings input = .ok ⟨s, turn.1.mechanism⟩ := by
      rw [OperatorAuthGate.authenticate, hturns, tryInOrder_first hbefore hnames]
      exact asserted_of_fair (Turn.nonempty_of_names hnames) hfair
    have hmem : turn ∈ gate.turns readings := by simp [hturns]
    have haccepts := Turn.accepts_of_names hnames hfair
    refine ⟨Or.inl ⟨_, hgate⟩, ⟨fun _ => ⟨turn, hmem, _, haccepts⟩, fun _ => ⟨_, hgate⟩⟩, ?_⟩
    intro p hp
    obtain rfl := Except.ok.inj (hgate.symm.trans hp)
    exact ⟨Turn.nonempty_of_names hnames, turn, hmem, haccepts, hfair⟩

/-- **The gate is total** exactly where the first mechanism whose checks the request passes does not
name the reserved subject, unless it is the shared secret. -/
theorem authenticates_totally_iff (W : Wire Bytes) (S : SignatureLibrary Bytes)
    (gate : OperatorAuthGate) (readings : ℕ → Reading Bytes) (input : AuthInput) :
    AuthenticatesTotally W S gate readings input ↔
      FirstNamesUnreserved W S gate readings input := by
  refine ⟨fun h before turn after subject hturns hbefore hnames hreserved => ?_,
    AuthenticatesTotally.of_unreserved⟩
  by_contra hmechanism
  have hunfair : ¬ NamesFairly subject turn.1.mechanism := fun hfair =>
    hmechanism (hfair.mp hreserved)
  have hgate : gate.authenticate W S readings input = .error .panic := by
    rw [OperatorAuthGate.authenticate, hturns, tryInOrder_first hbefore hnames]
    exact asserted_of_unfair hunfair
  obtain ⟨p, hp⟩ | ⟨reason, hrefused⟩ := h.answers
  · exact nomatch hgate.symm.trans hp
  · exact nomatch hgate.symm.trans hrefused

/-- A gate of certificates only. -/
def certificateGate : OperatorAuthGate where
  authenticators := [.mtls "x-client-cert-subject"]
  nonempty := by decide

/-- A certificate whose subject is the reserved one. -/
def unattributedCertificate : AuthInput where
  bearer := none
  headers := [("x-client-cert-subject",
    [0x75, 0x6E, 0x61, 0x74, 0x74, 0x72, 0x69, 0x62, 0x75, 0x74, 0x65, 0x64])]

/-- It makes the gate panic, whatever the keys are. -/
theorem certificate_gate_panics :
    ¬ ∀ (W : Wire String) (S : SignatureLibrary String) (readings : ℕ → Reading String),
      AuthenticatesTotally W S certificateGate readings unattributedCertificate := by
  intro h
  have hcertifies : CertifiesSubject "x-client-cert-subject" unattributedCertificate
      unattributedOperatorId :=
    ⟨⟨unattributedOperatorId.toList.map fun c => UInt8.ofNat c.toNat, unattributedOperatorId.toList,
      by decide +kernel, by decide +kernel, by decide +kernel⟩, by decide, by decide +kernel⟩
  have hpanic : ∀ (W : Wire String) S readings,
      certificateGate.authenticate W S readings unattributedCertificate = .error .panic := by
    intro W S readings
    have hfirst := @tryInOrder_first _ W S (.mtls "x-client-cert-subject", readings 0)
      unattributedCertificate unattributedOperatorId [] [] ⟨false, false⟩ (List.forall_mem_nil _)
      hcertifies
    exact hfirst.trans (asserted_of_unfair fun hfair => nomatch hfair.mp rfl)
  have htotal := h ⟨id, fun _ => "", fun _ => none, id, some⟩
    ⟨String.length, fun _ _ => false, fun _ _ => .error ""⟩ fun _ => ⟨0, .ok ""⟩
  obtain ⟨p, hp⟩ | ⟨reason, hrefused⟩ := htotal.answers
  · exact nomatch (hpanic _ _ _).symm.trans hp
  · exact nomatch (hpanic _ _ _).symm.trans hrefused

end OidcExchange
