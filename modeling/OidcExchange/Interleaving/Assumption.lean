import OidcExchange.Interleaving.Handler

/-!
# Calls under an assumption on their answers

What a call ends in when every operation is answered as assumed, whatever the order of the
answers. The rules follow the structure of the call; a call that is run with answers of the
assumed kind ends as the rules say.
-/

set_option autoImplicit false

namespace Interleaving.Program

variable {Op Op' : Type} {Ans : Op → Type} {Ans' : Op' → Type} {ε δ α β : Type}

/-- As long as its operations are answered as `admits` says, the program performs only `ready`
operations and ends in a result that `post` allows. -/
def Ensures (ready : Op → Prop) (admits : (o : Op) → Ans o → Prop) (post : Except ε α → Prop) :
    Program Ans ε α → Prop
  | .done a => post (.ok a)
  | .raise e => post (.error e)
  | .perform o next => ready o ∧ ∀ ans, admits o ans → Ensures ready admits post (next ans)

variable {ready : Op → Prop} {admits : (o : Op) → Ans o → Prop} {post : Except ε α → Prop}

@[simp] theorem ensures_done (a : α) :
    (.done a : Program Ans ε α).Ensures ready admits post ↔ post (.ok a) := Iff.rfl

@[simp] theorem ensures_raise (e : ε) :
    (.raise e : Program Ans ε α).Ensures ready admits post ↔ post (.error e) := Iff.rfl

@[simp] theorem ensures_perform (o : Op) (next : Ans o → Program Ans ε α) :
    (Program.perform o next).Ensures ready admits post ↔
      ready o ∧ ∀ ans, admits o ans → (next ans).Ensures ready admits post := Iff.rfl

@[simp] theorem ensures_ofExcept (r : Except ε α) :
    (ofExcept r : Program Ans ε α).Ensures ready admits post ↔ post r := by
  cases r <;> rfl

/-- An operation: the call goes on with an answer as assumed. -/
theorem ensures_ask_bind {o : Op} {f : Ans o → Program Ans ε α} (hready : ready o)
    (h : ∀ ans, admits o ans → (f ans).Ensures ready admits post) :
    (ask o >>= f).Ensures ready admits post :=
  ⟨hready, h⟩

theorem Ensures.mono {p : Program Ans ε α} {other : Except ε α → Prop}
    (h : p.Ensures ready admits post) (hle : ∀ r, post r → other r) :
    p.Ensures ready admits other := by
  induction p with
  | done a => exact hle _ h
  | raise e => exact hle _ h
  | perform o next ih => exact ⟨h.1, fun ans hans => ih ans (h.2 ans hans)⟩

theorem Ensures.mono_ready {ready' : Op → Prop} {p : Program Ans ε α}
    (h : p.Ensures ready admits post) (hle : ∀ o, ready o → ready' o) :
    p.Ensures ready' admits post := by
  induction p with
  | done a => exact h
  | raise e => exact h
  | perform o next ih => exact ⟨hle o h.1, fun ans hans => ih ans (h.2 ans hans)⟩

/-- The rule for sequencing. -/
theorem Ensures.bind {p : Program Ans ε α} {f : α → Program Ans ε β} {goal : Except ε β → Prop}
    (h : p.Ensures ready admits post) (hok : ∀ a, post (.ok a) → (f a).Ensures ready admits goal)
    (herr : ∀ e, post (.error e) → goal (.error e)) : (p >>= f).Ensures ready admits goal := by
  induction p with
  | done a => exact hok a h
  | raise e => exact herr e h
  | perform o next ih => exact ⟨h.1, fun ans hans => ih ans (h.2 ans hans)⟩

/-- The rule for going on from a failure as from a value. -/
theorem Ensures.attempt_bind {p : Program Ans ε α} {f : Except ε α → Program Ans δ β}
    {goal : Except δ β → Prop} (h : p.Ensures ready admits post)
    (hgoal : ∀ r, post r → (f r).Ensures ready admits goal) :
    (p.attempt >>= f).Ensures ready admits goal := by
  induction p with
  | done a => exact hgoal _ h
  | raise e => exact hgoal _ h
  | perform o next ih => exact ⟨h.1, fun ans hans => ih ans (h.2 ans hans)⟩

/-- The rule for a failure described in another way. -/
theorem Ensures.mapError {f : ε → δ} {p : Program Ans ε α} {goal : Except δ α → Prop}
    (h : p.Ensures ready admits post) (hok : ∀ a, post (.ok a) → goal (.ok a))
    (herr : ∀ e, post (.error e) → goal (.error (f e))) :
    (p.mapError f).Ensures ready admits goal := by
  induction p with
  | done a => exact hok a h
  | raise e => exact herr e h
  | perform o next ih => exact ⟨h.1, fun ans hans => ih ans (h.2 ans hans)⟩

/-- The rule for interpretation: every ready operation is answered by a program that ends in an
answer of the assumed kind. -/
theorem Ensures.interp {ready' : Op' → Prop} {admits' : (o : Op') → Ans' o → Prop}
    {h : Handler Ans Ans'} {p : Program Ans ε α}
    (hh : ∀ o, ready o → ((h o).infallible : Program Ans' ε (Ans o)).Ensures ready' admits'
      (fun r => ∃ ans, r = .ok ans ∧ admits o ans))
    (hp : p.Ensures ready admits post) : (interp h p).Ensures ready' admits' post := by
  induction p with
  | done a => exact hp
  | raise e => exact hp
  | perform o next ih =>
    refine (hh o hp.1).bind ?_ ?_
    · rintro a ⟨ans, hans, hadmits⟩
      obtain rfl := Except.ok.inj hans
      exact ih a (hp.2 a hadmits)
    · rintro e ⟨ans, hans, -⟩
      exact absurd hans (by simp)

/-- A run with answers of the assumed kind ends as the rules say. -/
theorem Ensures.run {p : Program Ans ε α} (h : p.Ensures ready admits post)
    {answer : (o : Op) → Ans o} (hans : ∀ o, admits o (answer o)) : post (p.run answer) := by
  induction p with
  | done a => exact h
  | raise e => exact h
  | perform o next ih => exact ih (answer o) (h.2 (answer o) (hans o))

/-! ## Operations that are programs and may fail

Every operation of a call is answered by a program over other operations; where that fails, the
call does. What these programs keep of the past, as long as they answer, is kept until the call
ends by itself or one of them fails.
-/

section

variable {Op Op' : Type} {Ans : Op → Type} {Ans' : Op' → Type} {ε α β : Type}

/-- The call with every operation answered by its program. -/
def expand (h : (o : Op) → Program Ans' ε (Ans o)) : Program Ans ε α → Program Ans' ε α
  | .done a => .done a
  | .raise e => .raise e
  | .perform o next => h o >>= fun ans => expand h (next ans)

variable {h : (o : Op) → Program Ans' ε (Ans o)}

@[simp] theorem expand_done (a : α) : expand h (.done a : Program Ans ε α) = .done a := rfl

@[simp] theorem expand_raise (e : ε) : expand h (.raise e : Program Ans ε α) = .raise e := rfl

@[simp] theorem expand_perform (o : Op) (next : Ans o → Program Ans ε α) :
    expand h (.perform o next) = h o >>= fun ans => expand h (next ans) := rfl

/-- An answer of which something is kept, or a failure that meets the goal. -/
def Keeps (kept : List (Performed Ans') → Prop) (failed : List (Performed Ans') → ε → Prop)
    (past : List (Performed Ans')) : Except ε β → Prop
  | .ok _ => kept past
  | .error e => failed past e

/-- The rule for calls whose operations are programs. -/
theorem Obeys.expand {ready : List (Performed Ans') → Op' → Prop}
    {kept : List (Performed Ans') → Prop} {failed : List (Performed Ans') → ε → Prop}
    {post : Except ε α → Prop} {goal : List (Performed Ans') → Except ε α → Prop}
    (hkeeps : ∀ o past, kept past → (h o).Obeys ready (Keeps kept failed) past)
    (hend : ∀ past r, kept past → post r → goal past r)
    (hfailed : ∀ past e, failed past e → goal past (.error e)) {p : Program Ans ε α}
    (hp : p.Ensures (fun _ => True) (fun _ _ => True) post) {past : List (Performed Ans')}
    (hpast : kept past) : (expand h p).Obeys ready goal past := by
  induction p generalizing past with
  | done a => exact hend past _ hpast hp
  | raise e => exact hend past _ hpast hp
  | perform o next ih =>
    refine (hkeeps o past hpast).bind ?_ ?_
    · exact fun past' ans hkept => ih ans (hp.2 ans trivial) hkept
    · exact fun past' e => hfailed past' e

end

end Interleaving.Program
