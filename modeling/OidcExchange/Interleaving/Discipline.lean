import OidcExchange.Interleaving.Program

/-!
# Disciplined calls and invariants of pools

What a call may perform next is judged by its own past alone: a discipline. That
a program obeys one, whatever it is answered, is a property of the program and
involves no other call. An invariant speaks of the world and the history, and is
preserved by every operation that a disciplined call performs. The two meet in
`Disciplined.run` and `Protocol.run`: in every pool a run leads to, each call has
obeyed its discipline so far and the invariant holds.
-/

set_option autoImplicit false

namespace Interleaving

variable {Op : Type} {Ans : Op → Type} {ι ε α β ρ W χ κ : Type}

namespace Program

/-- The program, continued after `past`, performs only what `ready` admits and ends in
a result that `post` admits, whatever it is answered. -/
def Obeys (ready : List (Performed Ans) → Op → Prop)
    (post : List (Performed Ans) → Except ε α → Prop) :
    List (Performed Ans) → Program Ans ε α → Prop
  | past, .done a => post past (.ok a)
  | past, .raise e => post past (.error e)
  | past, .perform o next => ready past o ∧ ∀ ans, Obeys ready post (⟨o, ans⟩ :: past) (next ans)

variable {ready : List (Performed Ans) → Op → Prop}
  {post other : List (Performed Ans) → Except ε α → Prop} {past : List (Performed Ans)}

@[simp] theorem obeys_done (a : α) :
    Obeys ready post past (.done a) ↔ post past (.ok a) := Iff.rfl

@[simp] theorem obeys_raise (e : ε) :
    Obeys ready post past (.raise e) ↔ post past (.error e) := Iff.rfl

@[simp] theorem obeys_perform (o : Op) (next : Ans o → Program Ans ε α) :
    Obeys ready post past (.perform o next) ↔
      ready past o ∧ ∀ ans, Obeys ready post (⟨o, ans⟩ :: past) (next ans) := Iff.rfl

@[simp] theorem obeys_ask (o : Op) {post : List (Performed Ans) → Except ε (Ans o) → Prop} :
    Obeys ready post past (ask o) ↔ ready past o ∧ ∀ ans, post (⟨o, ans⟩ :: past) (.ok ans) :=
  Iff.rfl

@[simp] theorem obeys_ofExcept (r : Except ε α) :
    Obeys ready post past (ofExcept r) ↔ post past r := by
  cases r <;> rfl

/-- A value or a failure that is already there: the call goes on with the value. -/
theorem obeys_ofExcept_bind {r : Except ε α} {f : α → Program Ans ε β}
    {goal : List (Performed Ans) → Except ε β → Prop}
    (hok : ∀ a, r = .ok a → Obeys ready goal past (f a))
    (herr : ∀ e, r = .error e → goal past (.error e)) :
    Obeys ready goal past (ofExcept r >>= f) := by
  cases r with
  | ok a => exact hok a rfl
  | error e => exact herr e rfl

/-- An operation: the call goes on with the answer. -/
theorem obeys_ask_bind {o : Op} {f : Ans o → Program Ans ε β}
    {goal : List (Performed Ans) → Except ε β → Prop} (hready : ready past o)
    (h : ∀ ans, Obeys ready goal (⟨o, ans⟩ :: past) (f ans)) :
    Obeys ready goal past (ask o >>= f) :=
  ⟨hready, h⟩

/-- A result admitted by a stronger condition is admitted by a weaker one. -/
theorem Obeys.mono {p : Program Ans ε α} (hle : ∀ past r, post past r → other past r)
    (h : Obeys ready post past p) : Obeys ready other past p := by
  induction p generalizing past with
  | done a => exact hle _ _ h
  | raise e => exact hle _ _ h
  | perform o next ih => exact ⟨h.1, fun ans => ih ans (h.2 ans)⟩

/-- What a stronger discipline admits, a weaker one admits. -/
theorem Obeys.mono_ready {ready' : List (Performed Ans) → Op → Prop} {p : Program Ans ε α}
    (hle : ∀ past o, ready past o → ready' past o) (h : Obeys ready post past p) :
    Obeys ready' post past p := by
  induction p generalizing past with
  | done a => exact h
  | raise e => exact h
  | perform o next ih => exact ⟨hle _ _ h.1, fun ans => ih ans (h.2 ans)⟩

/-- Two disciplines that a program obeys, it obeys together. -/
theorem Obeys.and {ready' : List (Performed Ans) → Op → Prop} {p : Program Ans ε α}
    (h : Obeys ready post past p) (h' : Obeys ready' other past p) :
    Obeys (fun past o => ready past o ∧ ready' past o) (fun past r => post past r ∧ other past r)
      past p := by
  induction p generalizing past with
  | done a => exact ⟨h, h'⟩
  | raise e => exact ⟨h, h'⟩
  | perform o next ih => exact ⟨⟨h.1, h'.1⟩, fun ans => ih ans (h.2 ans) (h'.2 ans)⟩

/-- A program obeys a discipline that asks for nothing. -/
theorem obeys_of_forall (hready : ∀ past o, ready past o) (hpost : ∀ past r, post past r)
    (p : Program Ans ε α) : Obeys ready post past p := by
  induction p generalizing past with
  | done a => exact hpost _ _
  | raise e => exact hpost _ _
  | perform o next ih => exact ⟨hready _ _, fun ans => ih ans⟩

/-- **The rule for sequencing**: the continuation obeys after whatever the first part
has added to the past. -/
theorem Obeys.bind {p : Program Ans ε α} {f : α → Program Ans ε β}
    {goal : List (Performed Ans) → Except ε β → Prop}
    (h : Obeys ready post past p)
    (hok : ∀ past' a, post past' (.ok a) → Obeys ready goal past' (f a))
    (herr : ∀ past' e, post past' (.error e) → goal past' (.error e)) :
    Obeys ready goal past (p >>= f) := by
  induction p generalizing past with
  | done a => exact hok _ _ h
  | raise e => exact herr _ _ h
  | perform o next ih => exact ⟨h.1, fun ans => ih ans (h.2 ans)⟩

/-- The rule for a failure handed on as a value. -/
theorem Obeys.attempt {δ : Type} {p : Program Ans ε α}
    {goal : List (Performed Ans) → Except δ (Except ε α) → Prop}
    (h : Obeys ready post past p) (hgoal : ∀ past' r, post past' r → goal past' (.ok r)) :
    Obeys ready goal past ((p.attempt : Program Ans δ (Except ε α))) := by
  induction p generalizing past with
  | done a => exact hgoal _ _ h
  | raise e => exact hgoal _ _ h
  | perform o next ih => exact ⟨h.1, fun ans => ih ans (h.2 ans)⟩

/-- The rule for going on from a failure as from a value. -/
theorem Obeys.attempt_bind {δ : Type} {p : Program Ans ε α}
    {f : Except ε α → Program Ans δ β} {goal : List (Performed Ans) → Except δ β → Prop}
    (h : Obeys ready post past p)
    (hgoal : ∀ past' r, post past' r → Obeys ready goal past' (f r)) :
    Obeys ready goal past (p.attempt >>= f) := by
  induction p generalizing past with
  | done a => exact hgoal _ _ h
  | raise e => exact hgoal _ _ h
  | perform o next ih => exact ⟨h.1, fun ans => ih ans (h.2 ans)⟩

/-- The rule for a failure described in another way. -/
theorem Obeys.mapError {δ : Type} {f : ε → δ} {p : Program Ans ε α}
    {goal : List (Performed Ans) → Except δ α → Prop} (h : Obeys ready post past p)
    (hok : ∀ past' a, post past' (.ok a) → goal past' (.ok a))
    (herr : ∀ past' e, post past' (.error e) → goal past' (.error (f e))) :
    Obeys ready goal past (p.mapError f) := by
  induction p generalizing past with
  | done a => exact hok _ _ h
  | raise e => exact herr _ _ h
  | perform o next ih => exact ⟨h.1, fun ans => ih ans (h.2 ans)⟩

/-! ## Programs that perform only some operations -/

/-- Whatever it is answered, the program performs only operations with property `P`. -/
def Only (P : Op → Prop) : Program Ans ε α → Prop
  | .done _ => True
  | .raise _ => True
  | .perform o next => P o ∧ ∀ ans, Only P (next ans)

section Only

variable {P : Op → Prop}

@[simp] theorem only_done (a : α) : Only P (.done a : Program Ans ε α) := trivial

@[simp] theorem only_raise (e : ε) : Only P (.raise e : Program Ans ε α) := trivial

@[simp] theorem only_perform (o : Op) (next : Ans o → Program Ans ε α) :
    Only P (.perform o next) ↔ P o ∧ ∀ ans, Only P (next ans) := Iff.rfl

@[simp] theorem only_ask (o : Op) : Only P (ask o : Program Ans ε (Ans o)) ↔ P o := by
  simp [ask]

@[simp] theorem only_ofExcept (r : Except ε α) : Only P (ofExcept r : Program Ans ε α) := by
  cases r <;> trivial

/-- What every operation has, every program's operations have. -/
theorem only_of_forall (hP : ∀ o, P o) (p : Program Ans ε α) : Only P p := by
  induction p with
  | done a => trivial
  | raise e => trivial
  | perform o next ih => exact ⟨hP o, ih⟩

theorem Only.bind {p : Program Ans ε α} {f : α → Program Ans ε β} (hp : Only P p)
    (hf : ∀ a, Only P (f a)) : Only P (p >>= f) := by
  induction p with
  | done a => exact hf a
  | raise e => trivial
  | perform o next ih => exact ⟨hp.1, fun ans => ih ans (hp.2 ans)⟩

theorem Only.mapError {δ : Type} {f : ε → δ} {p : Program Ans ε α} (hp : Only P p) :
    Only P (p.mapError f) := by
  induction p with
  | done a => trivial
  | raise e => trivial
  | perform o next ih => exact ⟨hp.1, fun ans => ih ans (hp.2 ans)⟩

theorem Only.mono {Q : Op → Prop} {p : Program Ans ε α} (hp : Only P p) (hle : ∀ o, P o → Q o) :
    Only Q p := by
  induction p with
  | done a => trivial
  | raise e => trivial
  | perform o next ih => exact ⟨hle o hp.1, fun ans => ih ans (hp.2 ans)⟩

theorem Only.attempt {δ : Type} {p : Program Ans ε α} (hp : Only P p) :
    Only P ((p.attempt : Program Ans δ (Except ε α))) := by
  induction p with
  | done a => trivial
  | raise e => trivial
  | perform o next ih => exact ⟨hp.1, fun ans => ih ans (hp.2 ans)⟩

end Only

/-- The later past is the earlier one with operations of property `P` performed since. -/
def Since (P : Op → Prop) (past past' : List (Performed Ans)) : Prop :=
  ∃ more, past' = more ++ past ∧ ∀ e ∈ more, P e.1

namespace Since

variable {P : Op → Prop} {past past' past'' : List (Performed Ans)}

theorem refl (past : List (Performed Ans)) : Since P past past := ⟨[], rfl, by simp⟩

theorem trans (h₁ : Since P past past') (h₂ : Since P past' past'') : Since P past past'' := by
  obtain ⟨more₁, rfl, hall₁⟩ := h₁
  obtain ⟨more₂, rfl, hall₂⟩ := h₂
  refine ⟨more₂ ++ more₁, by simp, ?_⟩
  intro e he
  rcases List.mem_append.mp he with he | he
  · exact hall₂ e he
  · exact hall₁ e he

theorem cons {e : Performed Ans} (he : P e.1) (h : Since P past past') :
    Since P past (e :: past') := by
  obtain ⟨more, rfl, hall⟩ := h
  exact ⟨e :: more, rfl, by simpa [he] using hall⟩

theorem suffix (h : Since P past past') : past <:+ past' := by
  obtain ⟨more, rfl, -⟩ := h
  exact List.suffix_append ..

theorem mono {Q : Op → Prop} (h : Since P past past') (hle : ∀ o, P o → Q o) :
    Since Q past past' := by
  obtain ⟨more, rfl, hall⟩ := h
  exact ⟨more, rfl, fun e he => hle _ (hall e he)⟩

/-- What nothing performed takes away is still there. -/
theorem keeps {I : List (Performed Ans) → Prop} (h : Since P past past')
    (hkeep : ∀ e past, I past → I (e :: past)) (hpast : I past) : I past' := by
  obtain ⟨more, rfl, -⟩ := h
  induction more with
  | nil => exact hpast
  | cons e more ih => exact hkeep e _ ih

/-- What was performed before is still in the past. -/
theorem mem {e : Performed Ans} (h : Since P past past') (he : e ∈ past) : e ∈ past' := by
  obtain ⟨more, rfl, -⟩ := h
  exact List.mem_append_right _ he

end Since

/-- A program of operations that are admitted while a property of the past holds, which
nothing performed takes away. -/
theorem Only.obeys_while {P : Op → Prop} {I : List (Performed Ans) → Prop} {p : Program Ans ε α}
    (hp : Only P p) (hkeep : ∀ e past, I past → I (e :: past))
    (hready : ∀ past o, I past → P o → ready past o) (hpast : I past) :
    Obeys ready (fun past' _ => I past') past p := by
  induction p generalizing past with
  | done a => exact hpast
  | raise e => exact hpast
  | perform o next ih =>
    exact ⟨hready past o hpast hp.1, fun ans => ih ans (hp.2 ans) (hkeep _ _ hpast)⟩

/-- A program of operations that are always admitted obeys, and only extends the past
by such operations. -/
theorem Only.obeys {P : Op → Prop} {p : Program Ans ε α} (hp : Only P p)
    (hready : ∀ past o, P o → ready past o) :
    Obeys ready (fun past' _ => Since P past past') past p := by
  suffices h : ∀ base : List (Performed Ans), Since P base past →
      Obeys ready (fun past' _ => Since P base past') past p from h past (.refl past)
  intro base hbase
  induction p generalizing past with
  | done a => exact hbase
  | raise e => exact hbase
  | perform o next ih =>
    exact ⟨hready past o hp.1, fun ans => ih ans (hp.2 ans) (.cons hp.1 hbase)⟩

/-! ## Calls that go on from a past -/

/-- The past has grown from `base`, and the value returned is as stated. -/
def Grown (base : List (Performed Ans)) (P : List (Performed Ans) → α → Prop)
    (past : List (Performed Ans)) (r : Except ε α) : Prop :=
  base <:+ past ∧ ∀ a, r = .ok a → P past a

section Grown

variable {base : List (Performed Ans)} {P : List (Performed Ans) → α → Prop}
  {Q : List (Performed Ans) → β → Prop}

theorem grown_ok {a : α} (h : P base a) : Grown base P base (.ok a : Except ε α) :=
  ⟨List.suffix_rfl, fun b hb => by cases hb; exact h⟩

theorem grown_error (e : ε) : Grown base P base (.error e : Except ε α) :=
  ⟨List.suffix_rfl, fun a ha => by cases ha⟩

/-- The rule for sequencing parts that each go on from where the one before ended. -/
theorem Obeys.grown_bind {p : Program Ans ε α} {f : α → Program Ans ε β}
    (hp : p.Obeys ready (Grown base P) base)
    (hok : ∀ past a, base <:+ past → P past a → (f a).Obeys ready (Grown past Q) past) :
    (p >>= f).Obeys ready (Grown base Q) base := by
  refine hp.bind ?_ ?_
  · rintro past a ⟨hsuffix, ha⟩
    exact (hok past a hsuffix (ha a rfl)).mono fun past' r ⟨hsuffix', hr⟩ =>
      ⟨hsuffix.trans hsuffix', hr⟩
  · rintro past e ⟨hsuffix, -⟩
    exact ⟨hsuffix, fun a ha => by cases ha⟩

/-- An operation whose answer is a value or a failure. -/
theorem obeys_perform_grown {o : Op} {g : Ans o → Except ε α} (hready : ready base o)
    (hP : ∀ ans a, g ans = .ok a → P (⟨o, ans⟩ :: base) a) :
    (perform o fun ans => ofExcept (g ans)).Obeys ready (Grown base P) base := by
  refine ⟨hready, fun ans => ?_⟩
  rw [obeys_ofExcept]
  exact ⟨List.suffix_cons .., fun a ha => hP ans a ha⟩

end Grown

end Program

/-! ## What a past shows first -/

section Earliest

variable (view : (o : Op) → Ans o → Option α) {past : List (Performed Ans)}

/-- The first thing a view shows of a past, which is kept newest first. -/
def earliest (past : List (Performed Ans)) : Option α :=
  (past.filterMap fun e => view e.1 e.2).getLast?

@[simp] theorem earliest_nil : earliest view ([] : List (Performed Ans)) = none := rfl

/-- What was seen first stays first. -/
theorem earliest_append {a : α} (h : earliest view past = some a) (more : List (Performed Ans)) :
    earliest view (more ++ past) = some a := by
  unfold earliest at h ⊢
  rw [List.filterMap_append, List.getLast?_append, h]
  rfl

/-- What was seen first stays first, after one more operation. -/
theorem earliest_cons {a : α} (h : earliest view past = some a) (e : Performed Ans) :
    earliest view (e :: past) = some a :=
  earliest_append view h [e]

/-- As long as nothing was seen, the next operation is the first that can be. -/
theorem earliest_of_none (h : earliest view past = none) (e : Performed Ans) :
    earliest view (e :: past) = view e.1 e.2 := by
  have hnil : past.filterMap (fun e => view e.1 e.2) = [] := List.getLast?_eq_none_iff.mp h
  unfold earliest
  rw [List.filterMap_cons, hnil]
  cases view e.1 e.2 <;> rfl

/-- Operations that the view does not show change nothing about it. -/
theorem earliest_since {P : Op → Prop} {past' : List (Performed Ans)}
    (h : Program.Since P past past') (hblind : ∀ o ans, P o → view o ans = none) :
    earliest view past' = earliest view past := by
  obtain ⟨more, rfl, hall⟩ := h
  have hnil : more.filterMap (fun e => view e.1 e.2) = [] := by
    rw [List.filterMap_eq_nil_iff]
    exact fun e he => hblind e.1 e.2 (hall e he)
  unfold earliest
  rw [List.filterMap_append, hnil, List.nil_append]

end Earliest

namespace Moment

/-- Call `c` is running and was asked `request`. -/
structure Running (m : Moment Ans ι W) (c : ℕ) (request : ι) : Prop where
  asked : ∀ i, .began c i ∈ m.history ↔ i = request
  open_ : .ended c ∉ m.history

/-- Call `c` has not appeared yet. -/
def Unseen (m : Moment Ans ι W) (c : ℕ) : Prop := ∀ e ∈ m.history, e.call ≠ c

/-- A call that has not appeared has done nothing. -/
theorem Unseen.past {m : Moment Ans ι W} {c : ℕ} (h : m.Unseen c) : m.past c = [] := by
  simp only [Moment.past, List.filterMap_eq_nil_iff]
  intro e he
  have hne := h e he
  cases e with
  | began d i => rfl
  | ended d => rfl
  | performed d o ans => simpa [Event.performedBy, Event.call] using hne

end Moment

/-- Every call of the pool was asked what the history says, has ended when the history
says so, has obeyed its discipline so far and goes on to obey it. -/
structure Disciplined (ready : ι → List (Performed Ans) → Op → Prop)
    (post : ι → List (Performed Ans) → Except ε ρ → Prop) (p : Pool Ans ι ε ρ W) : Prop where
  unseen : ∀ c, p.calls c = none → p.toMoment.Unseen c
  asked : ∀ c call, p.calls c = some call → ∀ i, .began c i ∈ p.history ↔ i = call.request
  ended : ∀ c call, p.calls c = some call → (.ended c ∈ p.history ↔ call.rest.finished = true)
  obeys : ∀ c call, p.calls c = some call →
    call.rest.Obeys (ready call.request) (post call.request) (p.toMoment.past c)

namespace Disciplined

variable {sem : Semantics Ans W χ κ} {body : ι → Program Ans ε ρ}
  {ready : ι → List (Performed Ans) → Op → Prop}
  {post : ι → List (Performed Ans) → Except ε ρ → Prop}

/-- A pool without calls is disciplined. -/
theorem initial (w : W) :
    Disciplined ready post (Pool.initial w : Pool Ans ι ε ρ W) where
  unseen := by simp [Moment.Unseen, Pool.initial]
  asked := by simp [Pool.initial]
  ended := by simp [Pool.initial]
  obeys := by simp [Pool.initial]

/-- A running call of a disciplined pool. -/
theorem running {p : Pool Ans ι ε ρ W} (h : Disciplined ready post p) {c : ℕ} {i : ι} {o : Op}
    {next : Ans o → Program Ans ε ρ} (hc : p.calls c = some ⟨i, .perform o next⟩) :
    p.toMoment.Running c i where
  asked := h.asked c _ hc
  open_ := by
    have := h.ended c _ hc
    simpa using this

/-- A running call is ready for what it is about to perform. -/
theorem ready_next {p : Pool Ans ι ε ρ W} (h : Disciplined ready post p) {c : ℕ} {i : ι}
    {o : Op} {next : Ans o → Program Ans ε ρ} (hc : p.calls c = some ⟨i, .perform o next⟩) :
    ready i (p.toMoment.past c) o :=
  (h.obeys c _ hc).1

/-- The result of a call that returned is admitted. -/
theorem returned {p : Pool Ans ι ε ρ W} (h : Disciplined ready post p) {c : ℕ} {i : ι} {a : ρ}
    (hc : p.Returned c i a) : post i (p.toMoment.past c) (.ok a) :=
  h.obeys c _ hc

/-- The failure of a call that failed is admitted. -/
theorem failed {p : Pool Ans ι ε ρ W} (h : Disciplined ready post p) {c : ℕ} {i : ι} {e : ε}
    (hc : p.Failed c i e) : post i (p.toMoment.past c) (.error e) :=
  h.obeys c _ hc

/-- A call was asked one request. -/
theorem began_unique {p : Pool Ans ι ε ρ W} (h : Disciplined ready post p) {c : ℕ} {i j : ι}
    (hi : .began c i ∈ p.history) (hj : .began c j ∈ p.history) : i = j := by
  cases hc : p.calls c with
  | none => exact absurd rfl (h.unseen c hc _ hi)
  | some call => exact ((h.asked c call hc i).mp hi).trans ((h.asked c call hc j).mp hj).symm

theorem mem_settle_history {c : ℕ} {rest : Program Ans ε ρ} {m : Moment Ans ι W}
    {e : Event Ans ι} :
    e ∈ (Pool.settle c rest m).history ↔
      (rest.finished = true ∧ e = .ended c) ∨ e ∈ m.history := by
  unfold Pool.settle
  by_cases h : rest.finished = true <;> simp [h]

@[simp] theorem settle_past (c d : ℕ) (rest : Program Ans ε ρ) (m : Moment Ans ι W) :
    (Pool.settle c rest m).past d = m.past d := by
  unfold Pool.settle
  split <;> rfl

@[simp] theorem settle_world (c : ℕ) (rest : Program Ans ε ρ) (m : Moment Ans ι W) :
    (Pool.settle c rest m).world = m.world := by
  unfold Pool.settle
  split <;> rfl

/-- Every step keeps the pool disciplined, when every body obeys. -/
theorem step (hbody : ∀ i, (body i).Obeys (ready i) (post i) [])
    {p q : Pool Ans ι ε ρ W} {a : Act ι χ κ} (h : Disciplined ready post p)
    (hstep : (Pool.system sem body).step p a = some q) : Disciplined ready post q := by
  obtain ⟨c, i, -, hnone, hm, hcalls⟩ | ⟨c, x, i, o, next, ans, w, -, hc, -, hm, hcalls⟩ |
    ⟨k, w, -, -, hm, hcalls⟩ := Pool.step_cases hstep
  · -- a call begins: it has no past, and its body obeys
    have hunseen := h.unseen c hnone
    constructor
    · intro d hd e he
      have hne : d ≠ c := by
        rintro rfl
        simp [hcalls] at hd
      rw [hcalls, Function.update_of_ne hne] at hd
      rw [hm, mem_settle_history] at he
      rcases he with ⟨-, rfl⟩ | he
      · exact fun hcall => hne hcall.symm
      · rcases List.mem_cons.mp he with rfl | he
        · exact fun hcall => hne hcall.symm
        · exact h.unseen d hd e he
    · intro d call hd j
      rw [hm, mem_settle_history]
      by_cases hdc : d = c
      · subst hdc
        simp only [hcalls, Function.update_self, Option.some.injEq] at hd
        subst hd
        have hno : Event.began d j ∉ p.history := fun hmem => hunseen _ hmem rfl
        simp [hno]
      · rw [hcalls, Function.update_of_ne hdc] at hd
        simp [h.asked d call hd j, hdc]
    · intro d call hd
      rw [hm, mem_settle_history]
      by_cases hdc : d = c
      · subst hdc
        simp only [hcalls, Function.update_self, Option.some.injEq] at hd
        subst hd
        have hno : Event.ended d ∉ p.history := fun hmem => hunseen _ hmem rfl
        simp [hno]
      · rw [hcalls, Function.update_of_ne hdc] at hd
        simp [h.ended d call hd, hdc]
    · intro d call hd
      rw [hm, settle_past, Moment.past_begin]
      by_cases hdc : d = c
      · subst hdc
        simp only [hcalls, Function.update_self, Option.some.injEq] at hd
        subst hd
        rw [hunseen.past]
        exact hbody i
      · rw [hcalls, Function.update_of_ne hdc] at hd
        exact h.obeys d call hd
  · -- a call performs its next operation: its past grows by one, the others' do not
    constructor
    · intro d hd e he
      have hne : d ≠ c := by
        rintro rfl
        simp [hcalls] at hd
      rw [hcalls, Function.update_of_ne hne] at hd
      rw [hm, mem_settle_history] at he
      rcases he with ⟨-, rfl⟩ | he
      · exact fun hcall => hne hcall.symm
      · rcases List.mem_cons.mp he with rfl | he
        · exact fun hcall => hne hcall.symm
        · exact h.unseen d hd e he
    · intro d call hd j
      rw [hm, mem_settle_history]
      by_cases hdc : d = c
      · subst hdc
        simp only [hcalls, Function.update_self, Option.some.injEq] at hd
        subst hd
        simp [h.asked d _ hc j]
      · rw [hcalls, Function.update_of_ne hdc] at hd
        simp [h.asked d call hd j]
    · intro d call hd
      rw [hm, mem_settle_history]
      by_cases hdc : d = c
      · subst hdc
        simp only [hcalls, Function.update_self, Option.some.injEq] at hd
        subst hd
        have hno : Event.ended d ∉ p.history := (h.running hc).open_
        simp [hno]
      · rw [hcalls, Function.update_of_ne hdc] at hd
        simp [h.ended d call hd, hdc]
    · intro d call hd
      rw [hm, settle_past]
      by_cases hdc : d = c
      · subst hdc
        simp only [hcalls, Function.update_self, Option.some.injEq] at hd
        subst hd
        rw [Moment.past_performed_self]
        exact (h.obeys d _ hc).2 ans
      · rw [hcalls, Function.update_of_ne hdc] at hd
        rw [Moment.past_performed_other _ (Ne.symm hdc)]
        exact h.obeys d call hd
  · -- the world drifts: no call is touched
    constructor
    · intro d hd
      rw [hm]
      exact h.unseen d (hcalls ▸ hd)
    · intro d call hd j
      rw [hm]
      exact h.asked d call (hcalls ▸ hd) j
    · intro d call hd
      rw [hm]
      exact h.ended d call (hcalls ▸ hd)
    · intro d call hd
      rw [hm]
      exact h.obeys d call (hcalls ▸ hd)

/-- Every run keeps the pool disciplined. -/
theorem run (hbody : ∀ i, (body i).Obeys (ready i) (post i) [])
    {meets : Pool Ans ι ε ρ W → Act ι χ κ → Prop} {p q : Pool Ans ι ε ρ W}
    {as : List (Act ι χ κ)} (hrun : (Pool.system sem body).Run meets p as q)
    (h : Disciplined ready post p) : Disciplined ready post q :=
  hrun.preserves (fun _ _ _ hs _ hst => hs.step hbody hst) h

end Disciplined

/-! ## What a history shows of two pools -/

namespace Pool

variable {sem : Semantics Ans W χ κ} {body : ι → Program Ans ε ρ} {p q s : Pool Ans ι ε ρ W}
  {a : Act ι χ κ}

/-- A step forgets nothing of the history. -/
theorem history_of_step (h : (Pool.system sem body).step p a = some q) :
    p.history <:+ q.history := by
  have hsettle : ∀ (c : ℕ) (rest : Program Ans ε ρ) (m : Moment Ans ι W),
      m.history <:+ (Pool.settle c rest m).history := by
    intro c rest m
    unfold Pool.settle
    split
    · exact List.suffix_cons ..
    · exact List.suffix_rfl
  obtain ⟨c, i, -, -, hm, -⟩ | ⟨c, x, i, o, next, ans, w, -, -, -, hm, -⟩ | ⟨k, w, -, -, hm, -⟩ :=
    Pool.step_cases h
  · rw [hm]
    exact (List.suffix_cons ..).trans (hsettle c (body i) (p.toMoment.begin c i))
  · rw [hm]
    exact (List.suffix_cons ..).trans (hsettle c (next ans) (p.toMoment.performed c o ans w))
  · rw [hm]
    exact List.suffix_rfl

/-- A run forgets nothing of the history. -/
theorem history_of_run {meets : Pool Ans ι ε ρ W → Act ι χ κ → Prop} {as : List (Act ι χ κ)}
    (h : (Pool.system sem body).Run meets p as q) : p.history <:+ q.history :=
  h.preserves (I := fun s => p.history <:+ s.history)
    (fun _ _ _ hs _ hstep => hs.trans (history_of_step hstep)) List.suffix_rfl

/-- Between the two pools call `c` performed `o` and was answered `ans`. -/
def Between (p q : Pool Ans ι ε ρ W) (c : ℕ) (o : Op) (ans : Ans o) : Prop :=
  ∃ more, q.history = more ++ p.history ∧ .performed c o ans ∈ more

theorem Between.suffix {c : ℕ} {o : Op} {ans : Ans o} (h : p.Between q c o ans)
    (hsuffix : q.history <:+ s.history) : p.Between s c o ans := by
  obtain ⟨more, hq, hmem⟩ := h
  obtain ⟨later, hs⟩ := hsuffix
  exact ⟨later ++ more, by rw [← hs, hq, List.append_assoc], List.mem_append_right _ hmem⟩

/-- What a step performs lies between any earlier pool and the next one. -/
theorem between_of_performed {c : ℕ} {o : Op} {ans : Ans o} {w : W} {rest : Program Ans ε ρ}
    (hsuffix : p.history <:+ q.history)
    (hm : s.toMoment = settle c rest (q.toMoment.performed c o ans w)) : p.Between s c o ans := by
  obtain ⟨more, hq⟩ := hsuffix
  have hmem : Event.performed c o ans ∈ .performed c o ans :: more := List.mem_cons_self ..
  have hhistory : s.history = (settle c rest (q.toMoment.performed c o ans w)).history := by rw [hm]
  unfold settle at hhistory
  split at hhistory
  · exact ⟨.ended c :: .performed c o ans :: more, by simp [hhistory, ← hq],
      List.mem_cons_of_mem _ hmem⟩
  · exact ⟨.performed c o ans :: more, by simp [hhistory, ← hq], hmem⟩

/-- The action lets call `c` perform `o`, and the call is answered `ans`. -/
def Answers (sem : Semantics Ans W χ κ) (body : ι → Program Ans ε ρ) (p : Pool Ans ι ε ρ W)
    (a : Act ι χ κ) (q : Pool Ans ι ε ρ W) (c : ℕ) (o : Op) (ans : Ans o) : Prop :=
  ∃ x i next w, a = .advance c x ∧ p.calls c = some ⟨i, .perform o next⟩ ∧
    sem.exec x c o p.world = some (ans, w) ∧ (system sem body).step p a = some q

/-- What an operation did to the world. -/
theorem Answers.world {c : ℕ} {o : Op} {ans : Ans o} (h : Answers sem body p a q c o ans) :
    ∃ x, sem.exec x c o p.world = some (ans, q.world) := by
  obtain ⟨x, i, next, w, rfl, hc, hex, hstep⟩ := h
  obtain ⟨c', i', hact, -⟩ | ⟨c', x', i', o', next', ans', w', hact, hc', hex', hm, -⟩ |
    ⟨k, w', hact, -⟩ := step_cases hstep
  · exact absurd hact (by simp)
  · obtain ⟨rfl, rfl⟩ : c = c' ∧ x = x' := by simpa using hact
    obtain ⟨rfl, hcall⟩ : i = i' ∧ _ := by simpa using hc.symm.trans hc'
    obtain ⟨rfl, -⟩ : o = o' ∧ _ := by simpa using hcall
    obtain ⟨-, rfl⟩ : ans = ans' ∧ w = w' := by simpa using hex.symm.trans hex'
    refine ⟨x, ?_⟩
    rw [hex, hm, Disciplined.settle_world, Moment.performed_world]
  · exact absurd hact (by simp)

end Pool

/-- An invariant of the world and the history, under a discipline of the calls and a
condition on the operations performed. -/
structure Protocol (sem : Semantics Ans W χ κ) (ready : ι → List (Performed Ans) → Op → Prop)
    where
  inv : Moment Ans ι W → Prop
  allowed : Moment Ans ι W → ℕ → χ → Op → Prop
  begins : ∀ {m c i}, inv m → m.Unseen c → inv (m.begin c i)
  performs : ∀ {m c i x o ans w}, inv m → m.Running c i → ready i (m.past c) o →
    allowed m c x o → sem.exec x c o m.world = some (ans, w) → inv (m.performed c o ans w)
  ends : ∀ {m c i}, inv m → m.Running c i → inv (m.ended c)
  drifts : ∀ {m k w}, inv m → sem.drift k m.world = some w → inv (m.drifted w)

namespace Protocol

variable {sem : Semantics Ans W χ κ} {body : ι → Program Ans ε ρ}
  {ready : ι → List (Performed Ans) → Op → Prop}
  {post : ι → List (Performed Ans) → Except ε ρ → Prop}

/-- Every step from a disciplined pool keeps the invariant. -/
theorem step (P : Protocol sem ready) {p q : Pool Ans ι ε ρ W} {a : Act ι χ κ}
    (hd : Disciplined ready post p) (hinv : P.inv p.toMoment) (hmeets : p.Under P.allowed a)
    (hstep : (Pool.system sem body).step p a = some q) : P.inv q.toMoment := by
  obtain ⟨c, i, -, hnone, hm, -⟩ | ⟨c, x, i, o, next, ans, w, rfl, hc, hex, hm, -⟩ |
    ⟨k, w, -, hdr, hm, -⟩ := Pool.step_cases hstep
  · have hunseen := hd.unseen c hnone
    have hbegun := P.begins (i := i) hinv hunseen
    rw [hm, Pool.settle]
    split
    · refine P.ends hbegun (i := i) ⟨fun j => ?_, ?_⟩
      · have hno : Event.began c j ∉ p.history := fun hmem => hunseen _ hmem rfl
        simp [hno]
      · have hno : Event.ended c ∉ p.history := fun hmem => hunseen _ hmem rfl
        simp [hno]
    · exact hbegun
  · have hrunning := hd.running hc
    have hdone := P.performs hinv hrunning (hd.ready_next hc) (hmeets c x o ⟨rfl, i, next, hc⟩) hex
    rw [hm, Pool.settle]
    split
    · refine P.ends hdone (i := i) ⟨fun j => ?_, ?_⟩
      · simp [hrunning.asked j]
      · simp [hrunning.open_]
    · exact hdone
  · rw [hm]
    exact P.drifts hinv hdr

/-- **The invariant rule**: in every run whose steps meet the condition, the invariant
holds at the end when it holds at the start. -/
theorem run (P : Protocol sem ready) (hbody : ∀ i, (body i).Obeys (ready i) (post i) [])
    {p q : Pool Ans ι ε ρ W} {as : List (Act ι χ κ)}
    (hrun : (Pool.system sem body).Run (Pool.Under P.allowed) p as q) (hd : Disciplined ready post p)
    (hinv : P.inv p.toMoment) : P.inv q.toMoment :=
  (hrun.preserves (I := fun s => Disciplined ready post s ∧ P.inv s.toMoment)
    (fun _ _ _ hs hmeets hst => ⟨hs.1.step hbody hst, P.step hs.1 hs.2 hmeets hst⟩)
    ⟨hd, hinv⟩).2

/-- The moment at which a call returns: its last operation has kept the invariant, and its
past admits the result. -/
theorem at_return (P : Protocol sem ready) {p q : Pool Ans ι ε ρ W} {c : ℕ} {x : χ} {i : ι}
    {a : ρ} (hbody : ∀ i, (body i).Obeys (ready i) (post i) []) (hd : Disciplined ready post p)
    (hinv : P.inv p.toMoment) (hmeets : p.Under P.allowed (.advance c x : Act ι χ κ))
    (hstep : (Pool.system sem body).step p (.advance c x) = some q) (hret : q.Returned c i a) :
    ∃ m, P.inv m ∧ m.Running c i ∧ post i (m.past c) (.ok a) ∧ q.toMoment = m.ended c := by
  have hpost := (hd.step hbody hstep).returned hret
  obtain ⟨c', j, hact, -⟩ | ⟨c', x', j, o, next, ans, w, hact, hc, hex, hm, hcalls⟩ |
    ⟨k, w, hact, -⟩ := Pool.step_cases hstep
  · exact absurd hact (by simp)
  · obtain ⟨rfl, rfl⟩ : c = c' ∧ x = x' := by simpa using hact
    obtain ⟨rfl, hnext⟩ : j = i ∧ next ans = .done a := by
      simpa [Pool.Returned, hcalls] using hret
    have hrunning := hd.running hc
    rw [hm, hnext] at hpost ⊢
    refine ⟨p.toMoment.performed c o ans w, P.performs hinv hrunning (hd.ready_next hc)
      (hmeets c x o ⟨rfl, j, next, hc⟩) hex, ⟨fun k => ?_, ?_⟩, ?_, ?_⟩
    · simp [hrunning.asked k]
    · simp [hrunning.open_]
    · simpa using hpost
    · simp [Pool.settle]
  · exact absurd hact (by simp)

end Protocol

/-! ## What was performed was admitted -/

section Admitted

variable {sem : Semantics Ans W χ κ} {body : ι → Program Ans ε ρ}
  {ready : ι → List (Performed Ans) → Op → Prop}
  {post : ι → List (Performed Ans) → Except ε ρ → Prop}

/-- Every operation in the history was admitted when its call performed it. -/
def Admitted (ready : ι → List (Performed Ans) → Op → Prop) (m : Moment Ans ι W) : Prop :=
  ∀ c o (ans : Ans o), .performed c o ans ∈ m.history →
    ∃ i past, .began c i ∈ m.history ∧ ready i past o ∧ (⟨o, ans⟩ :: past) <:+ m.past c

/-- What was admitted stays so in every longer history. -/
theorem Admitted.mono {m m' : Moment Ans ι W} (h : Admitted ready m)
    (hsuffix : m.history <:+ m'.history) {c : ℕ} {o : Op} {ans : Ans o}
    (hmem : .performed c o ans ∈ m.history) :
    ∃ i past, .began c i ∈ m'.history ∧ ready i past o ∧ (⟨o, ans⟩ :: past) <:+ m'.past c := by
  obtain ⟨i, past, hbegan, hready, hpast⟩ := h c o ans hmem
  exact ⟨i, past, hsuffix.subset hbegan, hready, hpast.trans (hsuffix.filterMap _)⟩

/-- That everything was admitted, as an invariant. -/
def admittedProtocol (sem : Semantics Ans W χ κ)
    (ready : ι → List (Performed Ans) → Op → Prop) : Protocol sem ready where
  inv := Admitted ready
  allowed _ _ _ _ := True
  begins h _ c o ans hmem := h.mono (List.suffix_cons ..) (by simpa using hmem)
  performs := fun {m c i x o ans w} h hrunning hready _ _ c' o' ans' hmem => by
    rcases List.mem_cons.mp hmem with heq | hmem
    · cases heq
      have hpast := Moment.past_performed_self m c o ans w
      exact ⟨i, m.past c, List.mem_cons_of_mem _ ((hrunning.asked i).mpr rfl), hready,
        hpast ▸ List.suffix_rfl⟩
    · exact h.mono (List.suffix_cons ..) hmem
  ends h _ c o ans hmem := h.mono (List.suffix_cons ..) (by simpa using hmem)
  drifts h _ := h

/-- In every run, every operation was admitted when it was performed. -/
theorem admitted_of_run (hbody : ∀ i, (body i).Obeys (ready i) (post i) []) {w : W}
    {meets : Pool Ans ι ε ρ W → Act ι χ κ → Prop} {p : Pool Ans ι ε ρ W} {as : List (Act ι χ κ)}
    (hrun : (Pool.system sem body).Run meets (Pool.initial w) as p) :
    Admitted ready p.toMoment :=
  (admittedProtocol sem ready).run hbody (hrun.mono fun _ _ _ _ _ _ _ => trivial)
    (Disciplined.initial w) (fun c o ans hmem => by simp [Pool.initial] at hmem)

end Admitted

end Interleaving
