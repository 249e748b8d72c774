import OidcExchange.Analysis.SigningInput
import OidcExchange.Interleaving.Testing

/-!
# What a webhook receives

Every attempt of a notice carries what was minted for it before the first one, and follows the
attempt before it after its delay. So a receiver that drops what it has seen under the same id
takes every notice for one event, however many notices are sent at once and whatever is lost on
the way; and what was sent successfully has reached it.
-/

set_option autoImplicit false

namespace OidcExchange

namespace Webhook

open Interleaving

abbrev Past : Type := List (Performed Ans)

/-! ## The operations of one call -/

/-- What is minted for a notice. -/
def Minted (sync : UserSync) (notice : UserSyncNotice) (now : Instant) (id : String)
    (delivery : Delivery) : Prop :=
  ∃ eventName data, payloadOf sync notice = .ok (eventName, data) ∧
    mintDelivery sync.lib sync.secret eventName data now id = .ok delivery

/-- The pause before an attempt; there is none before the first. -/
def pause (attempt : ℕ) : Past :=
  if 0 < attempt then [⟨.sleep (backoffDelay attempt), ()⟩] else []

/-- The attempts that were replied to like this, newest first, with their pauses. -/
def attempts (delivery : Delivery) : List Reply → Past
  | [] => []
  | reply :: earlier => ⟨.post delivery, reply⟩ :: (pause earlier.length ++ attempts delivery earlier)

/-- What comes before the first attempt. -/
def opening (now : Instant) (id : String) : Past := [⟨.generateId, id⟩, ⟨.now, now⟩]

/-- The attempt is made again after each of the replies. -/
def Repeated (sync : UserSync) (replies : List Reply) : Prop :=
  ∀ reply ∈ replies, ∃ e, reply.verdict sync.statusText = .again e

/-- So far the attempts were replied to like this, and the next may follow. -/
structure Underway (sync : UserSync) (notice : UserSyncNotice) (now : Instant) (id : String)
    (delivery : Delivery) (replies : List Reply) : Prop where
  minted : Minted sync notice now id delivery
  again : Repeated sync replies
  bounded : replies.length ≤ sync.retries

/-- What has happened in a call when it performs an operation. -/
def Ready (sync : UserSync) (notice : UserSyncNotice) (past : Past) : Command → Prop
  | .now => past = []
  | .generateId => ∃ now, past = [⟨.now, now⟩]
  | .sleep millis => ∃ now id delivery replies, Underway sync notice now id delivery replies ∧
    past = attempts delivery replies ++ opening now id ∧ 0 < replies.length ∧
    millis = backoffDelay replies.length
  | .post delivery => ∃ now id replies, Underway sync notice now id delivery replies ∧
    past = pause replies.length ++ attempts delivery replies ++ opening now id

/-- A call that succeeds has seen its last attempt succeed; one that fails was refused by the last,
or has made all of them, or could not write what it was to send. -/
def Concluded (sync : UserSync) (notice : UserSyncNotice) (past : Past) :
    Except (Fault Error) Unit → Prop
  | .ok () => ∃ now id delivery reply replies, Underway sync notice now id delivery replies ∧
    past = attempts delivery (reply :: replies) ++ opening now id ∧
    reply.verdict sync.statusText = .delivered
  | .error fault =>
    (∃ now id delivery reply replies detail, Underway sync notice now id delivery replies ∧
      past = attempts delivery (reply :: replies) ++ opening now id ∧
      reply.verdict sync.statusText = .refused detail ∧ fault = .error (.syncError detail)) ∨
    (∃ now id delivery replies e, Minted sync notice now id delivery ∧ Repeated sync replies ∧
      replies.length = sync.retries + 1 ∧ past = attempts delivery replies ++ opening now id ∧
      fault = .error (.syncError e)) ∨
    (∃ now id, past = opening now id ∧ (id = "" ∨ ∃ e, fault = .error (.syncError e))) ∨
    past = [] ∧ ∃ e, fault = .error (.syncError e)

section Calls

variable {sync : UserSync} {notice : UserSyncNotice} {now : Instant} {id : String}
  {delivery : Delivery} {replies : List Reply}

theorem Repeated.cons (h : Repeated sync replies) {reply : Reply} {e : String}
    (hreply : reply.verdict sync.statusText = .again e) : Repeated sync (reply :: replies) := by
  intro r hr
  rcases List.mem_cons.mp hr with rfl | hr
  · exact ⟨e, hreply⟩
  · exact h r hr

/-- The attempts that are left follow those that were made. -/
theorem deliver_obeys (hminted : Minted sync notice now id delivery)
    (hagain : Repeated sync replies) (left : ℕ) (lastErr : Option String)
    (hleft : replies.length + left = sync.retries + 1) :
    (deliver sync delivery left replies.length lastErr).Obeys (Ready sync notice)
      (Concluded sync notice) (attempts delivery replies ++ opening now id) := by
  induction left generalizing replies lastErr with
  | zero => exact .inr (.inl ⟨now, id, delivery, replies, _, hminted, hagain, hleft, rfl, rfl⟩)
  | succ left ih =>
    have hunderway : Underway sync notice now id delivery replies :=
      ⟨hminted, hagain, by omega⟩
    have hpause : (Adapter.when (decide (0 < replies.length))
        (Program.ask (Command.sleep (backoffDelay replies.length)))).Obeys (Ready sync notice)
        (fun past' r => r = .ok () ∧
          past' = pause replies.length ++ attempts delivery replies ++ opening now id)
        (attempts delivery replies ++ opening now id) := by
      refine Adapter.obeys_when (fun hlater => ⟨?_, fun _ => ⟨rfl, ?_⟩⟩) fun hfirst => ⟨rfl, ?_⟩
      · exact ⟨now, id, delivery, replies, hunderway, rfl, of_decide_eq_true hlater, rfl⟩
      · rw [pause, if_pos (of_decide_eq_true hlater)]
        rfl
      · rw [pause, if_neg (of_decide_eq_false hfirst)]
        rfl
    refine hpause.bind ?_ fun _ _ h => by cases h.1
    rintro _ ⟨⟩ ⟨-, rfl⟩
    refine Program.obeys_ask_bind ⟨now, id, replies, hunderway, rfl⟩ fun reply => ?_
    split
    · rename_i hverdict
      exact ⟨now, id, delivery, reply, replies, hunderway, rfl, hverdict⟩
    · rename_i e hverdict
      exact ih (hagain.cons hverdict) (some e) (by simp only [List.length_cons]; omega)
    · rename_i detail hverdict
      exact .inl ⟨now, id, delivery, reply, replies, detail, hunderway, rfl, hverdict, rfl⟩

theorem isEmpty_rfc3339 (t : Instant) : (rfc3339 t).isEmpty = false := by
  rw [String.isEmpty_eq_false_iff]
  intro h
  have hlist := congrArg String.toList h
  simp [rfc3339, clockText] at hlist

/-- What cannot be minted has no id, or no JSON. -/
theorem mintDelivery_eq_error {lib : WebhookLibrary} {secret eventName : String} {data : Value}
    {fault : Fault Error} (h : mintDelivery lib secret eventName data now id = .error fault) :
    id = "" ∨ ∃ e, fault = .error (.syncError e) := by
  by_cases hid : id = ""
  · exact .inl hid
  · refine .inr ?_
    have hassert : (!(rfc3339 now).isEmpty && !id.isEmpty) = true := by
      rw [isEmpty_rfc3339, String.isEmpty_eq_false_iff.mpr hid]
      rfl
    unfold mintDelivery assertThat at h
    simp only [hassert, if_true] at h
    cases hbody : lib.toVec (webhookPayload eventName (rfc3339 now) data) with
    | ok body =>
      rw [hbody] at h
      cases h
    | error e =>
      rw [hbody] at h
      cases h
      exact ⟨_, rfl⟩

/-- What is not sent of a notice has no JSON. -/
theorem payloadOf_eq_error {fault : Fault Error} (h : payloadOf sync notice = .error fault) :
    ∃ e, fault = .error (.syncError e) := by
  have hvalue : ∀ {user : User} {f : Value → String × Value},
      (userValue sync user).map f = .error fault → ∃ e, fault = .error (.syncError e) := by
    intro user f hmap
    unfold userValue at hmap
    cases hjson : sync.toValue user with
    | ok value =>
      rw [hjson] at hmap
      cases hmap
    | error e =>
      rw [hjson] at hmap
      cases hmap
      exact ⟨_, rfl⟩
  cases notice with
  | created user => exact hvalue h
  | updated user changedFields => exact hvalue h
  | deleted userId => cases h

/-- **A call sends what was minted for its notice.** -/
theorem notify_obeys (sync : UserSync) (notice : UserSyncNotice) :
    (notify sync notice).Obeys (Ready sync notice) (Concluded sync notice) [] := by
  unfold notify
  refine Program.obeys_ofExcept_bind ?_ ?_
  · rintro ⟨eventName, data⟩ hpayload
    refine ⟨rfl, fun now => ⟨⟨now, rfl⟩, fun id => ?_⟩⟩
    refine Program.obeys_ofExcept_bind ?_ ?_
    · intro delivery hminted
      have hnone : Repeated sync [] := by simp [Repeated]
      have hdeliver := deliver_obeys ⟨eventName, data, hpayload, hminted⟩ hnone
        (sync.retries + 1) none (Nat.zero_add _)
      exact hdeliver
    · exact fun fault hfault =>
        .inr (.inr (.inl ⟨now, id, rfl, mintDelivery_eq_error hfault⟩))
  · exact fun fault hfault => .inr (.inr (.inr ⟨rfl, payloadOf_eq_error hfault⟩))

end Calls

/-! ## What the receiver has seen -/

/-- Ids are new when they are drawn, what was received was sent, and what was answered with a status
was received. -/
structure Inv (m : SyncMoment) : Prop where
  drawn : ∀ c id, .performed c .generateId id ∈ m.history → id ≠ "" ∧ id ∈ m.world.ids
  once : ∀ c c' id, .performed c .generateId id ∈ m.history →
    .performed c' .generateId id ∈ m.history → c = c'
  sent : ∀ d ∈ m.world.received, ∃ c reply, .performed c (.post d) reply ∈ m.history
  reached : ∀ c d code, .performed c (.post d) (.status code) ∈ m.history → d ∈ m.world.received

/-- Everything one operation can do. -/
inductive Step (w : World) : (o : Command) → Ans o → World → Prop
  | read : Step w .now w.clock w
  | drew (id : String) (length : id.length = 26) (fresh : id ∉ w.ids) :
      Step w .generateId id { w with ids := id :: w.ids }
  | slept (millis : ℕ) : Step w (.sleep millis) () { w with clock := w.clock + millis * 10 ^ 6 }
  | reached (d : Delivery) (reply : Reply) :
      Step w (.post d) reply { w with received := d :: w.received }
  | lost (d : Delivery) (reply : Reply) (unanswered : ∀ code, reply ≠ .status code) :
      Step w (.post d) reply w

section Steps

variable {w w' : World} {o : Command} {ans : Ans o} {m : SyncMoment} {c : ℕ}

theorem Step.of_exec {x : Choice} (h : exec x c o w = some (ans, w')) : Step w o ans w' := by
  cases o with
  | now =>
    cases x <;> cases h
    exact .read
  | generateId =>
    cases x with
    | draw id =>
      unfold exec at h
      simp only [Option.ite_none_right_eq_some] at h
      obtain ⟨⟨hlength, hfresh⟩, heq⟩ := h
      cases heq
      exact .drew _ hlength hfresh
    | _ => cases h
  | sleep millis =>
    cases x <;> cases h
    exact .slept millis
  | post d =>
    cases x with
    | reach reply =>
      cases h
      exact .reached d _
    | lose reply =>
      cases reply with
      | status code => cases h
      | unanswered e =>
        cases h
        exact .lost d _ (by rintro _ ⟨⟩)
      | failed e =>
        cases h
        exact .lost d _ (by rintro _ ⟨⟩)
    | _ => cases h

/-- An operation that draws no id. -/
theorem Inv.undrawn (h : Inv m) (hids : w'.ids = m.world.ids)
    (hid : ∀ c' id, (.performed c' .generateId id : Event Ans UserSyncNotice) ≠ .performed c o ans)
    (hreceived : m.world.received ⊆ w'.received)
    (hsent : ∀ d ∈ w'.received, d ∈ m.world.received ∨
      ∃ reply, (.performed c (.post d) reply : Event Ans UserSyncNotice) = .performed c o ans)
    (hstatus : ∀ c' d code, (.performed c' (.post d) (.status code) : Event Ans UserSyncNotice) =
      .performed c o ans → d ∈ w'.received) : Inv (m.performed c o ans w') := by
  have hearlier : ∀ {c' id}, .performed c' .generateId id ∈ (m.performed c o ans w').history →
      .performed c' .generateId id ∈ m.history := fun hmem =>
    (List.mem_cons.mp hmem).resolve_left (hid _ _)
  constructor
  · intro c' id hmem
    obtain ⟨hne, hdrawn⟩ := h.drawn c' id (hearlier hmem)
    exact ⟨hne, hids ▸ hdrawn⟩
  · intro c₁ c₂ id h₁ h₂
    exact h.once c₁ c₂ id (hearlier h₁) (hearlier h₂)
  · intro d hd
    rcases hsent d hd with hd | ⟨reply, heq⟩
    · obtain ⟨c', reply, hmem⟩ := h.sent d hd
      exact ⟨c', reply, List.mem_cons_of_mem _ hmem⟩
    · exact ⟨c, reply, List.mem_cons.mpr (.inl heq)⟩
  · intro c' d code hmem
    rcases List.mem_cons.mp hmem with heq | hmem
    · exact hstatus c' d code heq
    · exact hreceived (h.reached c' d code hmem)

/-- Every operation keeps the invariant. -/
theorem Inv.performed (h : Inv m) (hstep : Step m.world o ans w') :
    Inv (m.performed c o ans w') := by
  cases hstep with
  | read =>
    refine h.undrawn rfl (by rintro _ _ ⟨⟩) (List.Subset.refl _) (fun _ => .inl) ?_
    rintro _ _ _ ⟨⟩
  | slept millis =>
    refine h.undrawn rfl (by rintro _ _ ⟨⟩) (List.Subset.refl _) (fun _ => .inl) ?_
    rintro _ _ _ ⟨⟩
  | drew id length fresh =>
    have hunseen : ∀ c', .performed c' .generateId id ∉ m.history := fun c' hmem =>
      fresh (h.drawn c' id hmem).2
    have hne : id ≠ "" := by
      rintro rfl
      exact absurd length (by decide)
    refine ⟨fun c' id' hmem => ?_, fun c₁ c₂ id' h₁ h₂ => ?_, fun d hd => ?_,
      fun c' d code hmem => ?_⟩
    · rcases List.mem_cons.mp hmem with heq | hmem
      · cases heq
        exact ⟨hne, List.mem_cons_self⟩
      · exact ⟨(h.drawn c' id' hmem).1, List.mem_cons_of_mem _ (h.drawn c' id' hmem).2⟩
    · rcases List.mem_cons.mp h₁ with heq | h₁ <;> rcases List.mem_cons.mp h₂ with heq' | h₂
      · cases heq
        cases heq'
        rfl
      · cases heq
        exact absurd h₂ (hunseen c₂)
      · cases heq'
        exact absurd h₁ (hunseen c₁)
      · exact h.once c₁ c₂ id' h₁ h₂
    · obtain ⟨c', reply, hmem⟩ := h.sent d hd
      exact ⟨c', reply, List.mem_cons_of_mem _ hmem⟩
    · exact h.reached c' d code ((List.mem_cons.mp hmem).resolve_left (by rintro ⟨⟩))
  | reached d reply =>
    refine h.undrawn rfl (by rintro _ _ ⟨⟩) (List.subset_cons_self ..) ?_ ?_
    · intro d' hd
      rcases List.mem_cons.mp hd with rfl | hd
      · exact .inr ⟨reply, rfl⟩
      · exact .inl hd
    · rintro _ _ _ ⟨⟩
      exact List.mem_cons_self
  | lost d reply unanswered =>
    refine h.undrawn rfl (by rintro _ _ ⟨⟩) (List.Subset.refl _) (fun _ => .inl) ?_
    rintro _ _ code ⟨⟩
    exact absurd rfl (unanswered code)

end Steps

/-- What the receiver has seen, in every run. -/
def syncProtocol (sync : UserSync) : Protocol semantics (Ready sync) where
  inv := Inv
  allowed _ _ _ _ := True
  begins h _ := ⟨by simpa using h.drawn, by simpa using h.once, by simpa using h.sent,
    by simpa using h.reached⟩
  performs {m c i x o ans w} h _ _ _ hex := h.performed (.of_exec (c := c) hex)
  ends h _ := ⟨by simpa using h.drawn, by simpa using h.once, by simpa using h.sent,
    by simpa using h.reached⟩
  drifts {m k w} h hdrift := by
    unfold semantics drift at hdrift
    simp only [Option.ite_none_right_eq_some, Option.some.injEq] at hdrift
    obtain ⟨-, rfl⟩ := hdrift
    exact ⟨h.drawn, h.once, h.sent, h.reached⟩

section Runs

variable {sync : UserSync} {clock : Instant} {as : List SyncAct} {p : SyncPool} {c c' : ℕ}
  {notice : UserSyncNotice} {d d' : Delivery}

theorem inv_of_run (hrun : (sending sync).Run System.anyStep (.start clock) as p) :
    Inv p.toMoment :=
  (syncProtocol sync).run (notify_obeys sync) (hrun.mono fun _ _ _ _ _ _ _ => trivial)
    (.initial _) ⟨by simp [SyncPool.start, Pool.initial], by simp [SyncPool.start, Pool.initial],
      by simp [SyncPool.start, Pool.initial], by simp [SyncPool.start, Pool.initial]⟩

theorem disciplined_of_run (hrun : (sending sync).Run System.anyStep (.start clock) as p) :
    Disciplined (Ready sync) (Concluded sync) p :=
  (Disciplined.initial _).run (notify_obeys sync) hrun

/-- The call has made an attempt with the delivery. -/
def Sends (p : SyncPool) (c : ℕ) (d : Delivery) : Prop :=
  ∃ reply, .performed c (.post d) reply ∈ p.history

/-- What a call has done when it makes an attempt. -/
theorem underway_of_sends (hrun : (sending sync).Run System.anyStep (.start clock) as p)
    {reply : Reply} (hmem : .performed c (.post d) reply ∈ p.history) :
    ∃ notice now id replies later, .began c notice ∈ p.history ∧
      Underway sync notice now id d replies ∧
      p.toMoment.past c = later ++ (attempts d (reply :: replies) ++ opening now id) := by
  obtain ⟨notice, _, hbegan, ⟨now, id, replies, hunderway, rfl⟩, later, hpast⟩ :=
    admitted_of_run (notify_obeys sync) hrun c _ _ hmem
  refine ⟨notice, now, id, replies, later, hbegan, hunderway, ?_⟩
  rw [← hpast]
  rfl

/-- Two lists that begin alike as a call begins. -/
theorem opening_unique {l l' : Past} {now now' : Instant} {id id' : String}
    (h : l ++ opening now id = l' ++ opening now' id') : now = now' ∧ id = id' := by
  have hend := List.append_inj_right' h rfl
  cases hend
  exact ⟨rfl, rfl⟩

/-- The id of a delivery was drawn by the call that sends it. -/
theorem drew_of_sends (hrun : (sending sync).Run System.anyStep (.start clock) as p)
    (hsends : Sends p c d) : .performed c .generateId d.deliveryId ∈ p.history := by
  obtain ⟨reply, hmem⟩ := hsends
  obtain ⟨notice, now, id, replies, later, -, ⟨⟨_, _, -, hminted⟩, -, -⟩, hpast⟩ :=
    underway_of_sends hrun hmem
  obtain ⟨-, hid, -⟩ := mintDelivery_signed hminted
  rw [hid]
  refine (Moment.mem_past ..).mp ?_
  rw [hpast]
  simp [opening]

/-- A call sends one delivery. -/
theorem sends_unique (hrun : (sending sync).Run System.anyStep (.start clock) as p)
    (hsends : Sends p c d) (hsends' : Sends p c d') : d = d' := by
  obtain ⟨reply, hmem⟩ := hsends
  obtain ⟨reply', hmem'⟩ := hsends'
  obtain ⟨notice, now, id, replies, later, hbegan, hunderway, hpast⟩ := underway_of_sends hrun hmem
  obtain ⟨notice', now', id', replies', later', hbegan', hunderway', hpast'⟩ :=
    underway_of_sends hrun hmem'
  have hsame := hpast.symm.trans hpast'
  rw [← List.append_assoc, ← List.append_assoc] at hsame
  obtain ⟨rfl, rfl⟩ := opening_unique hsame
  obtain rfl : notice = notice' := (disciplined_of_run hrun).began_unique hbegan hbegan'
  obtain ⟨eventName, data, hpayload, hminted⟩ := hunderway.minted
  obtain ⟨eventName', data', hpayload', hminted'⟩ := hunderway'.minted
  cases hpayload.symm.trans hpayload'
  exact Except.ok.inj (hminted.symm.trans hminted')

/-- A call that sends has minted what it sends. -/
theorem minted_of_sends (hrun : (sending sync).Run System.anyStep (.start clock) as p)
    (hsends : Sends p c d) : ∃ notice now, .began c notice ∈ p.history ∧
      Minted sync notice now d.deliveryId d := by
  obtain ⟨reply, hmem⟩ := hsends
  obtain ⟨notice, now, id, _, _, hbegan, hunderway, -⟩ := underway_of_sends hrun hmem
  obtain ⟨eventName, data, hpayload, hminted⟩ := hunderway.minted
  obtain ⟨-, rfl, -⟩ := mintDelivery_signed hminted
  exact ⟨notice, now, hbegan, eventName, data, hpayload, hminted⟩

/-- Deliveries with one id are one delivery of one call. -/
theorem sends_of_id (hrun : (sending sync).Run System.anyStep (.start clock) as p)
    (hsends : Sends p c d) (hsends' : Sends p c' d') (hid : d.deliveryId = d'.deliveryId) :
    c = c' ∧ d = d' := by
  have hdrew := drew_of_sends hrun hsends
  rw [hid] at hdrew
  obtain rfl := (inv_of_run hrun).once c c' _ hdrew (drew_of_sends hrun hsends')
  exact ⟨rfl, sends_unique hrun hsends hsends'⟩

/-- The call has made no attempt. -/
theorem not_sends_of_past
    (hpast : p.toMoment.past c = [] ∨ ∃ now id, p.toMoment.past c = opening now id) (d : Delivery) :
    ¬ Sends p c d := by
  rintro ⟨reply, hmem⟩
  have hmem := (Moment.mem_past ..).mpr hmem
  rcases hpast with hpast | ⟨now, id, hpast⟩
  · rw [hpast] at hmem
    cases hmem
  · rw [hpast] at hmem
    simp [opening] at hmem

/-- **Every attempt is the first one again**: in every run, whatever was sent before it, an attempt
carries what its call has minted for its notice, and follows attempts with the same delivery, no
more than the retries there are, each repeated because of its reply and after its delay. A call that
returned has seen its last attempt succeed; one that failed was refused by it, or has made every
attempt, or has made none. -/
theorem attempts_alike (hrun : (sending sync).Run System.anyStep (.start clock) as p) :
    (∀ c d reply, .performed c (.post d) reply ∈ p.history → ∃ notice now id replies later,
      .began c notice ∈ p.history ∧ Underway sync notice now id d replies ∧
        p.toMoment.past c = later ++ (attempts d (reply :: replies) ++ opening now id)) ∧
    (∀ c notice, p.Returned c notice () → ∃ now id d reply replies,
      Underway sync notice now id d replies ∧
        p.toMoment.past c = attempts d (reply :: replies) ++ opening now id ∧
        reply.verdict sync.statusText = .delivered) ∧
    ∀ c notice fault, p.Failed c notice fault → ∃ e, fault = .error (.syncError e) ∧
      ((∃ now id d reply replies, Underway sync notice now id d replies ∧
        p.toMoment.past c = attempts d (reply :: replies) ++ opening now id ∧
        reply.verdict sync.statusText = .refused e) ∨
      (∃ now id d replies, Repeated sync replies ∧ replies.length = sync.retries + 1 ∧
        p.toMoment.past c = attempts d replies ++ opening now id) ∨
      ∀ d, ¬ Sends p c d) := by
  refine ⟨fun c d reply => underway_of_sends hrun,
    fun c notice => (disciplined_of_run hrun).returned, fun c notice fault hfailed => ?_⟩
  rcases (disciplined_of_run hrun).failed hfailed with
    ⟨now, id, d, reply, replies, detail, hunderway, hpast, hverdict, rfl⟩ |
    ⟨now, id, d, replies, e, -, hrepeated, hall, hpast, rfl⟩ | ⟨now, id, hpast, hfault⟩ |
    ⟨hpast, e, rfl⟩
  · exact ⟨detail, rfl, .inl ⟨now, id, d, reply, replies, hunderway, hpast, hverdict⟩⟩
  · exact ⟨e, rfl, .inr (.inl ⟨now, id, d, replies, hrepeated, hall, hpast⟩)⟩
  · have hdrew : .performed c .generateId id ∈ p.history := by
      refine (Moment.mem_past ..).mp ?_
      rw [hpast]
      exact List.mem_cons_self
    rcases hfault with rfl | ⟨e, rfl⟩
    · exact absurd rfl ((inv_of_run hrun).drawn c _ hdrew).1
    · exact ⟨e, rfl, .inr (.inr (not_sends_of_past (.inr ⟨now, id, hpast⟩)))⟩
  · exact ⟨e, rfl, .inr (.inr (not_sends_of_past (.inl hpast)))⟩

/-! ## A receiver that drops repetitions -/

/-- What a receiver takes that drops what it has seen under the same id, newest first. -/
def taken : List Delivery → List Delivery
  | [] => []
  | d :: earlier =>
    if d.deliveryId ∈ (taken earlier).map Delivery.deliveryId then taken earlier
    else d :: taken earlier

theorem mem_of_mem_taken {l : List Delivery} (h : d ∈ taken l) : d ∈ l := by
  induction l with
  | nil => exact h
  | cons e l ih =>
    unfold taken at h
    split at h
    · exact List.mem_cons_of_mem _ (ih h)
    · rcases List.mem_cons.mp h with rfl | h
      · exact List.mem_cons_self
      · exact List.mem_cons_of_mem _ (ih h)

theorem nodup_taken (l : List Delivery) : ((taken l).map Delivery.deliveryId).Nodup := by
  induction l with
  | nil => exact List.nodup_nil
  | cons e l ih =>
    unfold taken
    split
    · exact ih
    · rename_i hnew
      rw [List.map_cons]
      exact List.nodup_cons.mpr ⟨hnew, ih⟩

/-- Under every id that was received something is taken. -/
theorem exists_taken {l : List Delivery} (h : d ∈ l) :
    ∃ d' ∈ taken l, d'.deliveryId = d.deliveryId := by
  induction l with
  | nil => cases h
  | cons e l ih =>
    unfold taken
    split
    · rename_i hseen
      rcases List.mem_cons.mp h with rfl | h
      · exact List.mem_map.mp hseen
      · exact ih h
    · rcases List.mem_cons.mp h with rfl | h
      · exact ⟨d, List.mem_cons_self, rfl⟩
      · obtain ⟨d', hd', hid⟩ := ih h
        exact ⟨d', List.mem_cons_of_mem _ hd', hid⟩

/-- **Every notice is taken for one event**: in every run of notices that are sent at once, with
attempts lost or received without an answer, a receiver that drops what it has seen under the same
id takes nothing twice, what it takes was minted by one call for its notice, and of a call that
returned it has taken the one delivery of that call. -/
theorem events_taken_once (hrun : (sending sync).Run System.anyStep (.start clock) as p) :
    (taken p.world.received).Nodup ∧
    (∀ d ∈ taken p.world.received, ∃ c notice now, .began c notice ∈ p.history ∧
      Minted sync notice now d.deliveryId d ∧ ∀ c', Sends p c' d ↔ c' = c) ∧
    ∀ c notice, p.Returned c notice () → ∃! d, d ∈ taken p.world.received ∧ Sends p c d := by
  have hinv := inv_of_run hrun
  refine ⟨(nodup_taken _).of_map, fun d hd => ?_, fun c notice hreturned => ?_⟩
  · obtain ⟨c, hsends⟩ := hinv.sent d (mem_of_mem_taken hd)
    obtain ⟨notice, now, hbegan, hminted⟩ := minted_of_sends hrun hsends
    refine ⟨c, notice, now, hbegan, hminted, fun c' => ⟨fun hsends' => ?_, ?_⟩⟩
    · exact (sends_of_id hrun hsends' hsends rfl).1
    · rintro rfl
      exact hsends
  · obtain ⟨now, id, d, reply, replies, -, hpast, hverdict⟩ :=
      (disciplined_of_run hrun).returned hreturned
    have hpost : .performed c (.post d) reply ∈ p.history := by
      refine (Moment.mem_past ..).mp ?_
      rw [hpast]
      exact List.mem_cons_self
    obtain ⟨code, rfl⟩ : ∃ code, reply = .status code := by
      cases reply with
      | status code => exact ⟨code, rfl⟩
      | unanswered e => cases hverdict
      | failed e => cases hverdict
    -- something is taken under the id of the attempt that succeeded, and it is that attempt
    obtain ⟨d', htaken, hid⟩ := exists_taken (hinv.reached c d code hpost)
    obtain ⟨c', hsends'⟩ := hinv.sent d' (mem_of_mem_taken htaken)
    obtain ⟨rfl, rfl⟩ := sends_of_id hrun hsends' ⟨_, hpost⟩ hid
    exact ⟨d', ⟨htaken, hsends'⟩, fun e he => sends_unique hrun he.2 hsends'⟩

end Runs

/-! ## An attempt that is received without an answer -/

namespace Sample

/-- A sender that retries twice. -/
def sync : UserSync :=
  buildUserSync { hmacSha256 := fun _ message => message.take 4, toVec := fun _ => .ok [] }
    (fun _ => .ok .null) toString "secret" none

/-- The first attempt is received but not answered, the second is answered. -/
def answeredLate : List SyncAct :=
  .begin 0 (.deleted "usr") :: [.proceed, .draw "01HQV3Z8K5J7M2N4P6R8T0W1X3",
    .reach (.unanswered "timed out"), .proceed, .reach (.status 200)].map (.advance 0)

/-- The call has returned. -/
def returned (p : SyncPool) : Bool :=
  match p.calls 0 with
  | some ⟨_, .done _⟩ => true
  | _ => false

theorem run_answeredLate : ∃ p notice,
    (sending sync).Run System.anyStep (.start 0) answeredLate p ∧ p.Returned 0 notice () ∧
      p.world.received.length = 2 := by
  have hruns : ((sending sync).follow (.start 0) answeredLate).any (fun p =>
      returned p && p.world.received.length == 2) = true := by decide +kernel
  obtain ⟨p, hrun, htest⟩ := System.Run.of_follow_any hruns
  obtain ⟨hreturned, hreceived⟩ := Bool.and_eq_true _ _ ▸ htest
  unfold returned at hreturned
  split at hreturned
  · rename_i notice _ hcall
    exact ⟨p, notice, hrun, hcall, eq_of_beq hreceived⟩
  · cases hreturned

end Sample

/-- Both attempts carry the same delivery, the second after its delay. -/
theorem attempts_alike_late : ∃ p notice now id d reply replies,
    (sending Sample.sync).Run System.anyStep (.start 0) Sample.answeredLate p ∧
      Underway Sample.sync notice now id d replies ∧
      p.toMoment.past 0 = attempts d (reply :: replies) ++ opening now id := by
  obtain ⟨p, notice, hrun, hreturned, -⟩ := Sample.run_answeredLate
  obtain ⟨now, id, d, reply, replies, hunderway, hpast, -⟩ :=
    (attempts_alike hrun).2.1 0 _ hreturned
  exact ⟨p, notice, now, id, d, reply, replies, hrun, hunderway, hpast⟩

/-- Both attempts are received, and one event is taken. -/
theorem events_taken_once_late : ∃ p,
    (sending Sample.sync).Run System.anyStep (.start 0) Sample.answeredLate p ∧
      p.world.received.length = 2 ∧ ∃! d, d ∈ taken p.world.received ∧ Sends p 0 d := by
  obtain ⟨p, notice, hrun, hreturned, hreceived⟩ := Sample.run_answeredLate
  exact ⟨p, hrun, hreceived, (events_taken_once hrun).2.2 0 _ hreturned⟩

end Webhook

end OidcExchange
