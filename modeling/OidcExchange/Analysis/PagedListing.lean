import OidcExchange.Analysis.PortFacts
import OidcExchange.Analysis.Undisturbed
import OidcExchange.Program.UserListing

/-!
# Following the cursors of the user listing

Someone reads the first page and then follows each cursor to the next page, while calls create and
change users. Every user that was there at the start is listed once, in one order, and without new
users the last page is reached.
-/

set_option autoImplicit false

namespace OidcExchange

open Storage Interleaving

/-! ## Traversals -/

/-- The store, the cursor to follow, the pages so far with the latest first, and how the
traversal ended. -/
structure Traversal : Type where
  world : World
  cursor : Option String
  pages : List UserPage
  outcome : Option (Answer Unit)

/-- The next page is read, or the store changes between two pages. -/
inductive TraversalAct : Type
  | page
  | operation (c : ℕ) (x : Choice) (o : Op)
  | drift (k : Drift)

namespace Traversal

def start (w : World) : Traversal where
  world := w
  cursor := none
  pages := []
  outcome := none

/-- The users of all pages, in the order they were listed. -/
def listed (s : Traversal) : List User := s.pages.reverse.flatMap UserPage.users

/-- A page ends the traversal when it has no cursor or is not delivered. -/
def receive (s : Traversal) : Answer UserPage → Traversal
  | .ok page =>
    { s with
      cursor := page.nextCursor
      pages := page :: s.pages
      outcome := if page.nextCursor.isSome then none else some (.ok ()) }
  | .error e => { s with outcome := some (.error e) }

end Traversal

/-- Reading pages until one has no cursor, between any operations of any calls. -/
def traversal (d : Deployment) (list : Table String User → Option String → Answer UserPage) :
    System Traversal TraversalAct where
  step s
    | .page => if s.outcome.isSome then none else some (s.receive (list s.world.users s.cursor))
    | .operation c x o => (exec d x c o s.world).map fun r => { s with world := r.2 }
    | .drift k => (drift k s.world).map fun w => { s with world := w }

/-! ## The store between two pages -/

/-- Every user is kept under its identifier, which is not empty. -/
def Named (w : World) : Prop := ∀ id u, w.users.lookup id = some u → u.id = id ∧ id ≠ ""

/-- Every user stays, with its creation time. -/
def World.Retains (w w' : World) : Prop :=
  ∀ id u, w.users.lookup id = some u →
    ∃ u', w'.users.lookup id = some u' ∧ u'.createdAt = u.createdAt

theorem World.Retains.refl (w : World) : w.Retains w := fun _ u h => ⟨u, h, rfl⟩

variable {d : Deployment} {w w' : World}

theorem Named.userStep {o : Op} {ans : Ans o} (hn : Named w) (h : UserStep w o ans w') :
    Named w' ∧ w.Retains w' := by
  cases h with
  | created new user fresh hnamed =>
    constructor
    · intro id u hu
      change (w.users.insert user.id user).lookup id = some u at hu
      rw [Table.lookup_insert_ite] at hu
      by_cases hid : id = user.id
      · rw [if_pos hid] at hu
        obtain rfl := Option.some.inj hu
        exact ⟨hid.symm, hid ▸ hnamed⟩
      · rw [if_neg hid] at hu
        exact hn id u hu
    · intro id u hu
      have hne : id ≠ user.id := by
        rintro rfl
        rw [hu] at fresh
        exact nomatch fresh
      refine ⟨u, ?_, rfl⟩
      show (w.users.insert user.id user).lookup id = some u
      rw [Table.lookup_insert_ite, if_neg hne, hu]
  | wrote userId user stored here =>
    constructor
    · intro id u hu
      change (w.users.insert userId (stored.overwritten user)).lookup id = some u at hu
      rw [Table.lookup_insert_ite] at hu
      by_cases hid : id = userId
      · rw [if_pos hid] at hu
        obtain rfl := Option.some.inj hu
        subst hid
        exact hn id stored here
      · rw [if_neg hid] at hu
        exact hn id u hu
    · intro id u hu
      by_cases hid : id = userId
      · subst hid
        obtain rfl := Option.some.inj (here.symm.trans hu)
        exact ⟨stored.overwritten user, AList.lookup_insert _, rfl⟩
      · refine ⟨u, ?_, rfl⟩
        show (w.users.insert userId (stored.overwritten user)).lookup id = some u
        rw [Table.lookup_insert_ite, if_neg hid, hu]
  | kept _ _ husers =>
    refine ⟨fun id u hu => hn id u (husers ▸ hu), fun id u hu => ⟨u, ?_, rfl⟩⟩
    rw [husers, hu]

/-! ## Rows -/

section Order

variable {κ : Type}

/-- A store lists its rows by their creation times and identifiers, each at one place. -/
structure UserOrder.Places (order : UserOrder κ) : Prop where
  id_read : ∀ u, (order.read u).id = u.id
  key_read : ∀ u, order.key (order.read u) = order.place u.createdAt u.id
  id_inj : ∀ t t' id id', order.place t id = order.place t' id' → id = id'

variable {order : UserOrder κ} {users : Table String User}

theorem mem_rows {r : User} :
    r ∈ order.rows users ↔ ∃ id u, users.lookup id = some u ∧ order.read u = r := by
  simp only [UserOrder.rows, List.mem_map, Sigma.exists, ← Option.mem_def, AList.mem_lookup_iff]

/-- No two rows are at one place. -/
theorem nodup_keys (hp : order.Places) (hn : Named w) :
    ((order.rows w.users).map order.key).Nodup := by
  rw [UserOrder.rows, List.map_map, List.Nodup, List.pairwise_map]
  have hkeys : w.users.entries.Pairwise fun a b => a.1 ≠ b.1 := by
    have hnodup := w.users.nodupKeys
    rwa [List.NodupKeys, List.keys, List.Nodup, List.pairwise_map] at hnodup
  refine hkeys.imp_of_mem fun {a b} ha hb hne heq => hne ?_
  have hentry : ∀ e ∈ w.users.entries, e.2.id = e.1 := fun e he =>
    (hn e.1 e.2 (AList.mem_lookup_iff.mpr he)).1
  simp only [Function.comp_apply, hp.key_read] at heq
  rw [← hentry a ha, ← hentry b hb]
  exact hp.id_inj _ _ _ _ heq

theorem key_mem_of_retains (hp : order.Places) (hn : Named w) (hn' : Named w')
    (h : w.Retains w') {r : User} (hr : r ∈ order.rows w.users) :
    ∃ r' ∈ order.rows w'.users, order.key r' = order.key r := by
  obtain ⟨id, u, hu, rfl⟩ := mem_rows.mp hr
  obtain ⟨u', hu', hcreated⟩ := h id u hu
  refine ⟨order.read u', mem_rows.mpr ⟨id, u', hu', rfl⟩, ?_⟩
  rw [hp.key_read, hp.key_read, hcreated, (hn id u hu).1, (hn' id u' hu').1]

end Order

/-! ## One page -/

section Page

variable {Bytes : Type} {codec : CursorCodec Bytes}

/-- The text of a cursor can be read back. -/
structure CursorCodec.Carries (codec : CursorCodec Bytes) (c : KeysetCursor) : Prop where
  nonempty : codec.wire.encode (codec.wire.toVec c.toWire) ≠ ""
  decode : codec.wire.decode (codec.wire.encode (codec.wire.toVec c.toWire)) =
    some (codec.wire.toVec c.toWire)
  fromSlice : codec.wire.fromSlice (codec.wire.toVec c.toWire) = some c.toWire
  parse : codec.parse (rfc3339 c.createdAt) = some c.createdAt

/-- The cursor that ends a page is the one the next page starts from. -/
theorem exists_encode {c : KeysetCursor} (h : codec.Carries c) (hid : c.id ≠ "") :
    ∃ next, KeysetCursor.encode codec c = .ok next ∧ KeysetCursor.decode codec next = .ok c := by
  have hfields : KeysetCursor.fieldsOfWire c.toWire = some (rfc3339 c.createdAt, c.id) := rfl
  have hbytes : KeysetCursor.ofBytes codec (codec.wire.toVec c.toWire) = some c := by
    simp [KeysetCursor.ofBytes, h.fromSlice, hfields, hid, h.parse]
  have hdecode : KeysetCursor.decode codec (codec.wire.encode (codec.wire.toVec c.toWire)) =
      .ok c := by
    rw [KeysetCursor.decode, if_neg h.nonempty, h.decode, Option.bind_some, hbytes]
  refine ⟨_, ?_, hdecode⟩
  simp only [KeysetCursor.encode, if_neg hid, if_neg h.nonempty, hdecode, if_pos]

variable {κ : Type} [LinearOrder κ] {order : UserOrder κ} {users : Table String User}
  {cursor : Option String} {limit : UInt32}

/-- The rows from the place after a cursor on. -/
abbrev placeOf (order : UserOrder κ) (resume : Option KeysetCursor) : Option κ :=
  resume.map fun position => order.place position.createdAt position.id

/-- What a page is: the last one, or one with a cursor to its last row. -/
inductive IsPage (codec : CursorCodec Bytes) (order : UserOrder κ) (users : Table String User)
    (position : Option κ) (limit : ℕ) : Answer UserPage → Prop
  | last (hend : (Keyset.beyond order.key (order.rows users) position).length ≤ limit) :
      IsPage codec order users position limit
        (.ok ⟨Keyset.select order.key (order.rows users) position limit, none⟩)
  | more (hmore : limit < (Keyset.beyond order.key (order.rows users) position).length)
      (row : User) (next : String)
      (hrow : (Keyset.select order.key (order.rows users) position limit).getLast? = some row)
      (hnext : KeysetCursor.decode codec next = .ok ⟨row.createdAt, row.id⟩) :
      IsPage codec order users position limit
        (.ok ⟨Keyset.select order.key (order.rows users) position limit, some next⟩)

theorem isPage_listUsers (hlower : 1 ≤ limit) (hupper : limit ≤ maxAdminPageSize)
    (hrows : ∀ r ∈ order.rows users, r.id ≠ "" ∧ codec.Carries ⟨r.createdAt, r.id⟩)
    {resume : Option KeysetCursor} (hresume : cursor.mapM (KeysetCursor.decode codec) = .ok resume) :
    IsPage codec order users (placeOf order resume) limit.toNat
      (listUsers codec order users cursor limit) := by
  have hlimit : 1 ≤ limit.toNat := UInt32.le_iff_toNat_le.mp hlower
  let position := placeOf order resume
  let rows := Keyset.select order.key (order.rows users) position (limit.toNat + 1)
  have hlist : listUsers codec order users cursor limit =
      if decide (limit.toNat < rows.length) then
        (rows.take limit.toNat).getLast?.elim (.error .panic) fun last => do
          let next ← KeysetCursor.encode codec ⟨last.createdAt, last.id⟩
          .ok ⟨rows.take limit.toNat, some next⟩
      else .ok ⟨rows, none⟩ := by
    rw [listUsers, if_neg (not_not.mpr ⟨hlower, hupper⟩), hresume]
    show (if decide (limit.toNat < rows.length) then _ else _) = _
    split
    · cases (rows.take limit.toNat).getLast? <;> rfl
    · rfl
  have hlength : rows.length =
      min (limit.toNat + 1) (Keyset.beyond order.key (order.rows users) position).length :=
    Keyset.length_select
  have htake : rows.take limit.toNat =
      Keyset.select order.key (order.rows users) position limit.toNat :=
    Keyset.select_take (by omega)
  by_cases hmore : limit.toNat < (Keyset.beyond order.key (order.rows users) position).length
  · have hpage : 0 < (rows.take limit.toNat).length := by
      rw [List.length_take]
      omega
    obtain ⟨row, hrow⟩ := Option.isSome_iff_exists.mp
      (List.getLast?_isSome.mpr (List.ne_nil_of_length_pos hpage))
    have hmem : row ∈ order.rows users := by
      have hselected := List.mem_of_mem_take (List.mem_of_getLast? hrow)
      exact (Keyset.mem_beyond.mp (Keyset.mem_of_mem_select hselected)).1
    obtain ⟨next, hencode, hdecode⟩ := exists_encode (hrows row hmem).2 (hrows row hmem).1
    rw [hlist, if_pos (by simp only [decide_eq_true_eq]; omega), hrow, htake]
    simp only [Option.elim_some, hencode]
    exact .more hmore row next (htake ▸ hrow) hdecode
  · rw [hlist, if_neg (by simp only [decide_eq_true_eq]; omega)]
    have hrows : rows = Keyset.select order.key (order.rows users) position limit.toNat := by
      rw [← htake, List.take_of_length_le (by omega)]
    rw [hrows]
    exact .last (not_lt.mp hmore)

/-- The page size that a request asks for. -/
def effectiveLimit (limit : Option UInt32) : UInt32 :=
  limit.elim defaultAdminPageSize fun requested => min requested maxAdminPageSize

theorem isPage_adminListUsers {requested : Option UInt32} (hrequested : requested ≠ some 0)
    (hrows : ∀ r ∈ order.rows users, r.id ≠ "" ∧ codec.Carries ⟨r.createdAt, r.id⟩)
    {resume : Option KeysetCursor} (hresume : cursor.mapM (KeysetCursor.decode codec) = .ok resume) :
    IsPage codec order users (placeOf order resume) (effectiveLimit requested).toNat
      (adminListUsers codec order users cursor requested) := by
  have hbounds : 1 ≤ effectiveLimit requested ∧ effectiveLimit requested ≤ maxAdminPageSize := by
    cases requested with
    | none => decide
    | some limit =>
      have hne : limit ≠ 0 := fun h => hrequested (congrArg some h)
      have hpositive : 1 ≤ limit := by
        have := UInt32.lt_iff_toNat_lt.mp (UInt32.pos_iff_ne_zero.mpr hne)
        exact UInt32.le_iff_toNat_le.mpr this
      show 1 ≤ (if limit ≤ maxAdminPageSize then limit else maxAdminPageSize) ∧
        (if limit ≤ maxAdminPageSize then limit else maxAdminPageSize) ≤ maxAdminPageSize
      by_cases hle : limit ≤ maxAdminPageSize
      · rw [if_pos hle]
        exact ⟨hpositive, hle⟩
      · rw [if_neg hle]
        decide
  have hpage := @isPage_listUsers _ _ _ _ _ users _ _ hbounds.1 hbounds.2 hrows _ hresume
  have hadmin : adminListUsers codec order users cursor requested =
      (do
        let page ← listUsers codec order users cursor (effectiveLimit requested)
        if (effectiveLimit requested).toNat < page.users.length then .error .panic
        else .ok page) := by
    have hinside : ¬(effectiveLimit requested < 1 ∨ maxAdminPageSize < effectiveLimit requested) :=
      not_or.mpr ⟨UInt32.not_lt.mpr hbounds.1, UInt32.not_lt.mpr hbounds.2⟩
    cases requested with
    | none =>
      exact (if_neg hinside : (if effectiveLimit none < 1 ∨ maxAdminPageSize < effectiveLimit none
        then (.error .panic : Answer UserPage) else _) = _)
    | some limit =>
      have hclamp : clampAdminPageLimit limit = .ok (effectiveLimit (some limit)) :=
        if_neg fun h => hrequested (congrArg some h)
      unfold adminListUsers
      simp only [hclamp]
      exact if_neg hinside
  have hlength : (Keyset.select order.key (order.rows users) (placeOf order resume)
      (effectiveLimit requested).toNat).length ≤ (effectiveLimit requested).toNat := by
    rw [Keyset.length_select]
    exact min_le_left _ _
  rw [hadmin]
  cases hlisted : listUsers codec order users cursor (effectiveLimit requested) with
  | error e =>
    rw [hlisted] at hpage
    exact nomatch hpage
  | ok page =>
    rw [hlisted] at hpage
    have hsame : page.users.length ≤ (effectiveLimit requested).toNat := by
      cases hpage with
      | last => exact hlength
      | more => exact hlength
    show IsPage _ _ _ _ _ (if _ then _ else _)
    rw [if_neg (not_lt.mpr hsame)]
    exact hpage

/-! ## Every traversal -/

/-- What holds in the course of a traversal: `wanted` are the places that have to be listed, and
`stable` the identifiers whose users do not change, with `w₀` the store at its start. -/
structure Paged (codec : CursorCodec Bytes) (order : UserOrder κ) (limit : ℕ) (w₀ : World)
    (stable : String → Prop) (s : Traversal) : Prop where
  named : Named s.world
  retained : w₀.Retains s.world
  bounded : ∀ page ∈ s.pages, page.users.length ≤ limit
  known : ∀ r ∈ s.listed, ∃ u, s.world.users.lookup r.id = some u ∧
    order.place u.createdAt r.id = order.key r
  shown : ∀ r ∈ s.listed, stable r.id →
    ∃ u, w₀.users.lookup r.id = some u ∧ r = order.read u
  descending : (s.listed.map order.key).Pairwise (· > ·)
  succeeded : ∀ e, s.outcome ≠ some (.error e)
  going : s.outcome = none → ∃ resume, s.cursor.mapM (KeysetCursor.decode codec) = .ok resume ∧
    Keyset.Covers (fun k => ∃ r ∈ order.rows w₀.users, order.key r = k) (s.listed.map order.key)
      (placeOf order resume) ∧ s.listed.length = s.pages.length * limit
  complete : s.outcome ≠ none → ∀ r ∈ order.rows w₀.users, order.key r ∈ s.listed.map order.key

namespace Paged

variable {limit : ℕ} {w₀ w : World} {stable : String → Prop} {s : Traversal}

theorem start (hn : Named w₀) : Paged codec order limit w₀ stable (.start w₀) where
  named := hn
  retained := .refl w₀
  bounded := by simp [Traversal.start]
  known := by simp [Traversal.start, Traversal.listed]
  shown := by simp [Traversal.start, Traversal.listed]
  descending := .nil
  succeeded := nofun
  going _ := ⟨none, rfl, .initial, by simp [Traversal.start, Traversal.listed]⟩
  complete h := absurd rfl h

/-- The store changes between two pages. -/
theorem between (h : Paged codec order limit w₀ stable s) (hn : Named w)
    (hretains : s.world.Retains w) : Paged codec order limit w₀ stable { s with world := w } where
  named := hn
  retained := by
    intro id u hu
    obtain ⟨u₁, hu₁, hcreated₁⟩ := h.retained id u hu
    obtain ⟨u₂, hu₂, hcreated₂⟩ := hretains id u₁ hu₁
    exact ⟨u₂, hu₂, hcreated₂.trans hcreated₁⟩
  bounded := h.bounded
  known := by
    intro r hr
    obtain ⟨u, hu, hplace⟩ := h.known r hr
    obtain ⟨u', hu', hcreated⟩ := hretains r.id u hu
    exact ⟨u', hu', by rw [hcreated, hplace]⟩
  shown := h.shown
  descending := h.descending
  succeeded := h.succeeded
  going := h.going
  complete := h.complete

@[simp] theorem listed_receive (page : UserPage) :
    (s.receive (.ok page)).listed = s.listed ++ page.users := by
  simp [Traversal.receive, Traversal.listed]

/-- A page is read. -/
theorem received (hp : order.Places) (hn₀ : Named w₀) (h : Paged codec order limit w₀ stable s)
    (hgoing : s.outcome = none) {answer : Answer UserPage} {resume : Option KeysetCursor}
    (hresume : s.cursor.mapM (KeysetCursor.decode codec) = .ok resume)
    (hpage : IsPage codec order s.world.users (placeOf order resume) limit answer)
    (hstable : ∀ id, stable id → s.world.users.lookup id = w₀.users.lookup id) :
    Paged codec order limit w₀ stable (s.receive answer) := by
  obtain ⟨resume', hresume', hcovers, hlength⟩ := h.going hgoing
  obtain rfl := Except.ok.inj (hresume.symm.trans hresume')
  have hnodup := nodup_keys hp h.named
  have hwanted : ∀ k, (∃ r ∈ order.rows w₀.users, order.key r = k) →
      ∃ r ∈ order.rows s.world.users, order.key r = k := by
    rintro k ⟨r, hr, rfl⟩
    exact key_mem_of_retains hp hn₀ h.named h.retained hr
  let page := Keyset.select order.key (order.rows s.world.users) (placeOf order resume) limit
  have hstored : ∀ r ∈ page, ∃ u, s.world.users.lookup r.id = some u ∧ order.read u = r := by
    intro r hr
    obtain ⟨id, u, hu, rfl⟩ :=
      mem_rows.mp (Keyset.mem_beyond.mp (Keyset.mem_of_mem_select hr)).1
    rw [hp.id_read, (h.named id u hu).1]
    exact ⟨u, hu, rfl⟩
  -- what does not depend on whether more pages follow
  have hcommon : ∀ next, Paged codec order limit w₀ stable (s.receive (.ok ⟨page, next⟩)) ↔
      ((s.receive (.ok ⟨page, next⟩)).outcome = none → ∃ resume,
        (s.receive (.ok ⟨page, next⟩)).cursor.mapM (KeysetCursor.decode codec) = .ok resume ∧
        Keyset.Covers (fun k => ∃ r ∈ order.rows w₀.users, order.key r = k)
          ((s.listed ++ page).map order.key) (placeOf order resume) ∧
        (s.listed ++ page).length = (s.pages.length + 1) * limit) ∧
      ((s.receive (.ok ⟨page, next⟩)).outcome ≠ none →
        ∀ r ∈ order.rows w₀.users, order.key r ∈ (s.listed ++ page).map order.key) := by
    intro next
    have hlisted : (s.receive (.ok ⟨page, next⟩)).listed = s.listed ++ page := listed_receive _
    refine ⟨fun h' => ⟨hlisted ▸ h'.going, hlisted ▸ h'.complete⟩, fun ⟨hgoing', hcomplete⟩ => ?_⟩
    constructor
    · exact h.named
    · exact h.retained
    · intro page' hmem
      rcases List.mem_cons.mp hmem with rfl | hmem
      · show page.length ≤ limit
        rw [Keyset.length_select]
        exact min_le_left _ _
      · exact h.bounded page' hmem
    · rw [hlisted]
      intro r hr
      rcases List.mem_append.mp hr with hr | hr
      · exact h.known r hr
      · obtain ⟨u, hu, rfl⟩ := hstored r hr
        refine ⟨u, hu, ?_⟩
        rw [hp.key_read, hp.id_read]
    · rw [hlisted]
      intro r hr hunchanged
      rcases List.mem_append.mp hr with hr | hr
      · exact h.shown r hr hunchanged
      · obtain ⟨u, hu, hread⟩ := hstored r hr
        exact ⟨u, (hstable r.id hunchanged).symm.trans hu, hread.symm⟩
    · rw [hlisted, List.map_append]
      exact hcovers.descending_append hnodup
    · intro e he
      cases next with
      | none => exact nomatch he
      | some next => exact nomatch he
    · rw [hlisted]
      exact hgoing'
    · rw [hlisted]
      exact hcomplete
  cases hpage with
  | last hend =>
    refine (hcommon none).mpr ⟨nofun, fun _ r hr => ?_⟩
    rw [List.map_append]
    exact hcovers.finish hnodup hwanted hend ⟨r, hr, rfl⟩
  | more hmore row next hrow hnext =>
    refine (hcommon (some next)).mpr ⟨fun _ => ⟨some ⟨row.createdAt, row.id⟩, ?_, ?_, ?_⟩, ?_⟩
    · show (KeysetCursor.decode codec next).map some = _
      rw [hnext]
      rfl
    · rw [List.map_append]
      exact hcovers.next hnodup hwanted hrow
    · rw [List.length_append, hlength, Keyset.length_select, min_eq_left hmore.le,
        Nat.add_mul, Nat.one_mul]
    · exact fun h => absurd rfl h

/-- No user is listed twice. -/
theorem nodup_ids (h : Paged codec order limit w₀ stable s) : (s.listed.map User.id).Nodup := by
  rw [List.Nodup, List.pairwise_map]
  refine (List.pairwise_map.mp h.descending).imp_of_mem fun {a b} ha hb hlt heq => ?_
  obtain ⟨u, hu, hplace⟩ := h.known a ha
  obtain ⟨v, hv, hplace'⟩ := h.known b hb
  rw [heq] at hu hplace
  obtain rfl := Option.some.inj (hu.symm.trans hv)
  rw [← hplace, hplace'] at hlt
  exact lt_irrefl _ hlt

/-- While the traversal goes on, its pages are full of users that are all there. -/
theorem progress (h : Paged codec order limit w₀ stable s)
    (hgoing : s.outcome = none) : s.pages.length * limit ≤ s.world.users.keys.length := by
  obtain ⟨-, -, -, hlength⟩ := h.going hgoing
  rw [← hlength, ← List.length_map User.id]
  refine (List.subperm_of_subset h.nodup_ids fun id hid => ?_).length_le
  obtain ⟨r, hr, rfl⟩ := List.mem_map.mp hid
  obtain ⟨u, hu, -⟩ := h.known r hr
  exact AList.lookup_isSome.mp (Option.isSome_iff_exists.mpr ⟨u, hu⟩)

/-- When the traversal has ended, every user of the start has been listed. -/
theorem mem_ids (hp : order.Places) (hn₀ : Named w₀) (h : Paged codec order limit w₀ stable s)
    (hended : s.outcome ≠ none) {id : String} {u : User} (hu : w₀.users.lookup id = some u) :
    id ∈ s.listed.map User.id := by
  have hrow := h.complete hended (order.read u) (mem_rows.mpr ⟨id, u, hu, rfl⟩)
  obtain ⟨r, hr, hkey⟩ := List.mem_map.mp hrow
  refine List.mem_map.mpr ⟨r, hr, ?_⟩
  rw [hp.key_read, (hn₀ id u hu).1] at hkey
  exact hp.id_inj _ _ _ _ hkey

end Paged

/-- A page is read where the text of the cursor to each row can be read back and the stable users
are as they were at the start. -/
def PageRead (codec : CursorCodec Bytes) (order : UserOrder κ) (w₀ : World)
    (stable : String → Prop) (s : Traversal) (a : TraversalAct) : Prop :=
  a = .page → (∀ r ∈ order.rows s.world.users, codec.Carries ⟨r.createdAt, r.id⟩) ∧
    ∀ id, stable id → s.world.users.lookup id = w₀.users.lookup id

variable {requested : Option UInt32} {w₀ : World} {stable : String → Prop} {s q : Traversal}

/-- The traversal of a request for pages of a given size. -/
abbrev listing (d : Deployment) (codec : CursorCodec Bytes) (order : UserOrder κ)
    (requested : Option UInt32) : System Traversal TraversalAct :=
  traversal d fun users cursor => adminListUsers codec order users cursor requested

theorem Paged.step (hp : order.Places) (hn₀ : Named w₀) (hrequested : requested ≠ some 0)
    {a : TraversalAct} (h : Paged codec order (effectiveLimit requested).toNat w₀ stable s)
    (hread : PageRead codec order w₀ stable s a)
    (hstep : (listing d codec order requested).step s a = some q) :
    Paged codec order (effectiveLimit requested).toNat w₀ stable q := by
  cases a with
  | page =>
    obtain ⟨hcarries, hstable⟩ := hread rfl
    by_cases hended : s.outcome.isSome
    · exact nomatch (if_pos hended).symm.trans hstep
    obtain rfl := Option.some.inj ((if_neg hended).symm.trans hstep)
    have hgoing : s.outcome = none := by simpa using hended
    obtain ⟨resume, hresume, -⟩ := h.going hgoing
    refine h.received hp hn₀ hgoing hresume (isPage_adminListUsers hrequested ?_ hresume) hstable
    intro r hr
    refine ⟨?_, hcarries r hr⟩
    obtain ⟨id, u, hu, rfl⟩ := mem_rows.mp hr
    rw [hp.id_read, (h.named id u hu).1]
    exact (h.named id u hu).2
  | operation c x o =>
    obtain ⟨⟨ans, w⟩, hex, rfl⟩ := Option.map_eq_some_iff.mp hstep
    obtain ⟨hn, hretains⟩ := h.named.userStep (userStep_of_exec hex)
    exact h.between hn hretains
  | drift k =>
    obtain ⟨w, hdrift, rfl⟩ := Option.map_eq_some_iff.mp hstep
    have husers := (shrinks_of_drift hdrift).2
    refine h.between (fun id u hu => h.named id u (husers ▸ hu)) fun id u hu => ⟨u, ?_, rfl⟩
    rw [husers, hu]

theorem Paged.run (hp : order.Places) (hn₀ : Named w₀) (hrequested : requested ≠ some 0)
    {as : List TraversalAct}
    (hrun : (listing d codec order requested).Run (PageRead codec order w₀ stable) (.start w₀) as q) :
    Paged codec order (effectiveLimit requested).toNat w₀ stable q :=
  hrun.preserves (fun _ _ _ h hread hstep => h.step hp hn₀ hrequested hread hstep) (.start hn₀)

theorem effectiveLimit_pos (hrequested : requested ≠ some 0) :
    0 < (effectiveLimit requested).toNat := by
  cases requested with
  | none => decide
  | some limit =>
    have hne : limit ≠ 0 := fun h => hrequested (congrArg some h)
    have hpositive := UInt32.lt_iff_toNat_lt.mp (UInt32.pos_iff_ne_zero.mpr hne)
    show 0 < (if limit ≤ maxAdminPageSize then limit else maxAdminPageSize).toNat
    by_cases hle : limit ≤ maxAdminPageSize
    · rw [if_pos hle]
      exact hpositive
    · rw [if_neg hle]
      decide

/-- While nothing else happens, pages can be read until one has no cursor. -/
theorem exists_pages (d : Deployment) (codec : CursorCodec Bytes) (requested : Option UInt32)
    (hcarries : ∀ r ∈ order.rows w₀.users, codec.Carries ⟨r.createdAt, r.id⟩) (n : ℕ) :
    ∃ m ≤ n, ∃ q, (listing d codec order requested).Run (PageRead codec order w₀ fun _ => True)
      (.start w₀) (List.replicate m .page) q ∧ q.world = w₀ ∧
      (q.outcome = none → m = n ∧ q.pages.length = n) := by
  induction n with
  | zero => exact ⟨0, le_rfl, _, .refl _, rfl, fun _ => ⟨rfl, rfl⟩⟩
  | succ n ih =>
    obtain ⟨m, hm, q, hrun, hworld, hpages⟩ := ih
    by_cases hended : q.outcome.isSome
    · refine ⟨m, by omega, q, hrun, hworld, fun hgoing => ?_⟩
      rw [hgoing] at hended
      exact nomatch hended
    · obtain ⟨rfl, hlength⟩ := hpages (by simpa using hended)
      let answer := adminListUsers codec order q.world.users q.cursor requested
      have hstep : (listing d codec order requested).step q .page = some (q.receive answer) :=
        if_neg hended
      have hread : PageRead codec order w₀ (fun _ => True) q .page :=
        fun _ => ⟨hworld ▸ hcarries, fun _ _ => by rw [hworld]⟩
      refine ⟨m + 1, le_rfl, q.receive answer, ?_, ?_, ?_⟩
      · rw [List.replicate_succ']
        exact hrun.trans (.single hread hstep)
      · cases answer <;> exact hworld
      · cases answer with
        | ok page => exact fun _ => ⟨rfl, congrArg (· + 1) hlength⟩
        | error e => exact nofun

end Page

/-! ## The listing -/

/-- What a traversal has listed. -/
structure Lists {κ : Type} [LinearOrder κ] (order : UserOrder κ) (limit : ℕ) (w₀ : World)
    (stable : String → Prop) (q : Traversal) : Prop where
  succeeded : ∀ e, q.outcome ≠ some (.error e)
  bounded : ∀ page ∈ q.pages, page.users.length ≤ limit
  ordered : q.listed.Pairwise fun a b => order.key b < order.key a
  once : (q.listed.map User.id).Nodup
  complete : q.outcome = some (.ok ()) → ∀ id u, w₀.users.lookup id = some u →
    id ∈ q.listed.map User.id
  shown : ∀ r ∈ q.listed, stable r.id → ∃ u, w₀.users.lookup r.id = some u ∧ r = order.read u
  progress : q.outcome = none → q.pages.length * limit ≤ q.world.users.keys.length

/-- Following the cursors from the first page lists every user that was there once, in the order of
their places and at most so many on a page, whatever calls do between two pages; and with nothing
in between the listing ends, with all users as they are. -/
def PagesComplete {Bytes κ : Type} [LinearOrder κ] (codec : CursorCodec Bytes)
    (order : UserOrder κ) : Prop :=
  ∀ (d : Deployment) (requested : Option UInt32) (w₀ : World), requested ≠ some 0 → Named w₀ →
    (∀ stable as q, (listing d codec order requested).Run (PageRead codec order w₀ stable)
        (.start w₀) as q →
      Lists order (effectiveLimit requested).toNat w₀ stable q) ∧
    ((∀ r ∈ order.rows w₀.users, codec.Carries ⟨r.createdAt, r.id⟩) →
      ∃ n ≤ w₀.users.keys.length / (effectiveLimit requested).toNat + 1, ∃ q,
        (listing d codec order requested).Run (PageRead codec order w₀ fun _ => True)
          (.start w₀) (List.replicate n .page) q ∧
        q.outcome = some (.ok ()) ∧ q.listed.Perm (order.rows w₀.users))

theorem pagesComplete {Bytes κ : Type} [LinearOrder κ] (codec : CursorCodec Bytes)
    {order : UserOrder κ} (hp : order.Places) : PagesComplete codec order := by
  intro d requested w₀ hrequested hn₀
  have hlists : ∀ stable as q, (listing d codec order requested).Run
      (PageRead codec order w₀ stable) (.start w₀) as q →
      Lists order (effectiveLimit requested).toNat w₀ stable q := by
    intro stable as q hrun
    have h := Paged.run hp hn₀ hrequested hrun
    exact ⟨h.succeeded, h.bounded, List.pairwise_map.mp h.descending, h.nodup_ids,
      fun hended id u hu => h.mem_ids hp hn₀ (by simp [hended]) hu, h.shown, h.progress⟩
  refine ⟨hlists, fun hcarries => ?_⟩
  have hlimit := effectiveLimit_pos hrequested
  obtain ⟨n, hn, q, hrun, hworld, hpages⟩ := exists_pages d codec requested hcarries
    (w₀.users.keys.length / (effectiveLimit requested).toNat + 1)
  have h := hlists _ _ _ hrun
  have hended : q.outcome ≠ none := by
    intro hgoing
    have hprogress := h.progress hgoing
    rw [(hpages hgoing).2, hworld, Nat.mul_comm] at hprogress
    exact absurd (Nat.lt_mul_div_succ _ hlimit) (not_lt.mpr hprogress)
  have houtcome : q.outcome = some (.ok ()) := by
    cases houtcome : q.outcome with
    | none => exact absurd houtcome hended
    | some result =>
      cases result with
      | ok a => rfl
      | error e => exact absurd houtcome (h.succeeded e)
  refine ⟨n, hn, q, hrun, houtcome, ?_⟩
  have hrows : (order.rows w₀.users).Nodup := (nodup_keys hp hn₀).of_map
  refine (List.perm_ext_iff_of_nodup h.once.of_map hrows).mpr fun r => ⟨fun hr => ?_, fun hr => ?_⟩
  · obtain ⟨u, hu, rfl⟩ := h.shown r hr trivial
    exact mem_rows.mpr ⟨_, u, hu, rfl⟩
  · obtain ⟨id, u, hu, rfl⟩ := mem_rows.mp hr
    obtain ⟨r, hr, rfl⟩ := List.mem_map.mp (h.complete houtcome id u hu)
    obtain ⟨v, hv, rfl⟩ := h.shown r hr trivial
    obtain rfl := Option.some.inj (hu.symm.trans hv)
    exact hr

/-! ## A small directory -/

namespace Sample

/-- A user with the given identifier and creation time. -/
def listedUser (id : String) (createdAt : Instant) : User where
  id := id
  externalId := id
  provider := "idp"
  email := none
  displayName := none
  metadata := ∅
  claims := ∅
  status := .active
  version := 1
  createdAt := createdAt
  updatedAt := createdAt

/-- A store with the given users at two seconds after the epoch. -/
def holding (users : List User) : World :=
  { World.empty 2000000000 with
    users := users.foldl (fun table user => table.insert user.id user) ∅ }

/-- Three users, two of them created at the same time. -/
def threeUsers : World :=
  holding [listedUser "usr_a" 0, listedUser "usr_b" 1000000000, listedUser "usr_c" 1000000000]

/-- The cursors that occur, with their texts. -/
def cursorTexts : List (KeysetCursor × String) :=
  [(⟨0, "usr_a"⟩,
      "eyJjIjoiMTk3MC0wMS0wMVQwMDowMDowMCswMDowMCIsImkiOiJ1c3JfYSJ9"),
    (⟨1000000000, "usr_b"⟩,
      "eyJjIjoiMTk3MC0wMS0wMVQwMDowMDowMSswMDowMCIsImkiOiJ1c3JfYiJ9"),
    (⟨1000000000, "usr_c"⟩,
      "eyJjIjoiMTk3MC0wMS0wMVQwMDowMDowMSswMDowMCIsImkiOiJ1c3JfYyJ9"),
    (⟨2000000000, "usr_d"⟩,
      "eyJjIjoiMTk3MC0wMS0wMVQwMDowMDowMiswMDowMCIsImkiOiJ1c3JfZCJ9")]

/-- The JSON text of a cursor without characters that are escaped. -/
def jsonOf : Value → String
  | .object [("c", .string c), ("i", .string i)] =>
    "\x7b\"c\":\"" ++ c ++ "\",\"i\":\"" ++ i ++ "\"\x7d"
  | _ => ""

section Codec

variable (texts : List (KeysetCursor × String))

/-- JSON, base64url and RFC 3339 for the cursors that occur. -/
def codecOf : CursorCodec String where
  wire :=
    { asBytes := id
      toVec := jsonOf
      fromSlice := fun json =>
        (texts.find? fun e => jsonOf e.1.toWire == json).map fun e => e.1.toWire
      encode := fun json => ((texts.find? fun e => jsonOf e.1.toWire == json).map (·.2)).getD ""
      decode := fun text => (texts.find? fun e => e.2 == text).map fun e => jsonOf e.1.toWire }
  parse := fun text =>
    (texts.find? fun e => rfc3339 e.1.createdAt == text).map fun e => e.1.createdAt

/-- Every text stands for one cursor. -/
def Distinguished : Prop :=
  ∀ e ∈ texts, e.2 ≠ "" ∧
    texts.find? (fun e' => jsonOf e'.1.toWire == jsonOf e.1.toWire) = some e ∧
    texts.find? (fun e' => e'.2 == e.2) = some e ∧
    (texts.find? fun e' => rfc3339 e'.1.createdAt == rfc3339 e.1.createdAt).map
      (·.1.createdAt) = some e.1.createdAt

variable {texts}

theorem codecOf_carries (hd : Distinguished texts) {c : KeysetCursor}
    (h : c ∈ texts.map Prod.fst) : (codecOf texts).Carries c := by
  obtain ⟨e, he, rfl⟩ := List.mem_map.mp h
  obtain ⟨hne, hjson, htext, htime⟩ := hd e he
  have hencode : (codecOf texts).wire.encode ((codecOf texts).wire.toVec e.1.toWire) = e.2 := by
    show ((texts.find? fun e' => jsonOf e'.1.toWire == jsonOf e.1.toWire).map (·.2)).getD "" = _
    rw [hjson, Option.map_some, Option.getD_some]
  constructor
  · rwa [hencode]
  · rw [hencode]
    show (texts.find? fun e' => e'.2 == e.2).map _ = _
    rw [htext, Option.map_some]
    rfl
  · show (texts.find? fun e' => jsonOf e'.1.toWire == jsonOf e.1.toWire).map _ = _
    rw [hjson, Option.map_some]
  · exact htime

end Codec

def cursorCodec : CursorCodec String := codecOf cursorTexts

theorem distinguished_cursorTexts : Distinguished cursorTexts := by
  unfold Distinguished
  decide +kernel

/-- The test of `PageRead`. -/
def readsCursors (s : Traversal) : TraversalAct → Bool
  | .page => (Sqlite.userOrder.rows s.world.users).all fun r =>
      (cursorTexts.map Prod.fst).contains ⟨r.createdAt, r.id⟩
  | _ => true

theorem pageRead_of_test {w₀ : World} (s : Traversal) (a : TraversalAct)
    (h : readsCursors s a = true) :
    PageRead cursorCodec Sqlite.userOrder w₀ (fun _ => False) s a := by
  rintro rfl
  refine ⟨fun r hr => codecOf_carries distinguished_cursorTexts ?_, fun _ => False.elim⟩
  exact List.contains_iff_mem.mp (List.all_eq_true.mp h r hr)

/-- Someone is created after the first page, someone else suspended after the second. -/
def readingThree : List TraversalAct :=
  [.page,
    .operation 0 (.draw "usr_d")
      (.createUser { externalId := "usr_d", provider := "idp", email := none, displayName := none }),
    .page,
    .operation 1 .proceed (.writeUser "usr_a" 1 { listedUser "usr_a" 0 with status := .suspended }),
    .page]

theorem named_holding {users : List User} (h : ∀ u ∈ users, u.id ≠ "") : Named (holding users) := by
  have hfold : ∀ (table : Table String User),
      (∀ id u, table.lookup id = some u → u.id = id ∧ id ≠ "") → ∀ id u,
      (users.foldl (fun table user => table.insert user.id user) table).lookup id = some u →
        u.id = id ∧ id ≠ "" := by
    induction users with
    | nil => exact fun _ htable => htable
    | cons user users ih =>
      intro table htable
      refine ih (fun u hu => h u (List.mem_cons_of_mem _ hu)) (table.insert user.id user) ?_
      intro id u hu
      rw [Table.lookup_insert_ite] at hu
      by_cases hid : id = user.id
      · rw [if_pos hid] at hu
        obtain rfl := Option.some.inj hu
        exact ⟨hid.symm, hid ▸ h user (List.mem_cons_self ..)⟩
      · rw [if_neg hid] at hu
        exact htable id u hu
  exact hfold ∅ (by simp)

end Sample

theorem sqlite_places : Sqlite.userOrder.Places where
  id_read _ := rfl
  key_read _ := rfl
  id_inj _ _ _ _ h := (Prod.mk.inj (toLex.injective h)).2

theorem postgres_places {α : Type} {collate : String → α} (hcollate : Function.Injective collate) :
    (Postgres.userOrder collate).Places where
  id_read _ := rfl
  key_read u := by
    show toLex (u.createdAt / Postgres.resolution * Postgres.resolution / Postgres.resolution, _) = _
    rw [Int.mul_ediv_cancel _ (by decide)]
    rfl
  id_inj _ _ _ _ h := hcollate (Prod.mk.inj (toLex.injective h)).2

/-- **Paged listing is complete and free of duplicates** in both stores, for users with
identifiers. -/
theorem listing_complete {Bytes : Type} (codec : CursorCodec Bytes) :
    PagesComplete codec Sqlite.userOrder ∧
      ∀ (α : Type) [LinearOrder α] (collate : String → α), Function.Injective collate →
        PagesComplete codec (Postgres.userOrder collate) :=
  ⟨pagesComplete codec sqlite_places,
    fun _ _ _ hcollate => pagesComplete codec (postgres_places hcollate)⟩

open Sample in
/-- Three users on pages of one, while a fourth is created and one is suspended. -/
theorem listing_complete_three : ∃ q,
    (listing (deployment true) cursorCodec Sqlite.userOrder (some 1)).Run
      (PageRead cursorCodec Sqlite.userOrder threeUsers fun _ => False) (.start threeUsers)
      readingThree q ∧
    q.listed.map User.id = ["usr_c", "usr_b", "usr_a"] ∧
    Lists Sqlite.userOrder 1 threeUsers (fun _ => False) q := by
  have hrun : ((listing (deployment true) cursorCodec Sqlite.userOrder (some 1)).followWhen
      readsCursors (.start threeUsers) readingThree).any
        (fun q => q.listed.map User.id == ["usr_c", "usr_b", "usr_a"]) = true := by
    decide +kernel
  obtain ⟨q, hrun, hids⟩ := System.Run.of_followWhen_any pageRead_of_test hrun
  refine ⟨q, hrun, by simpa using hids, ?_⟩
  exact ((listing_complete cursorCodec).1 (deployment true) (some 1) threeUsers (by decide)
    (named_holding (by decide))).1 _ _ q hrun

open Sample in
/-- A user without an identifier ends the listing: the cursor to it cannot be written. -/
theorem listing_fails_without_identifier :
    ∃ q, (listing (deployment true) cursorCodec Sqlite.userOrder (some 1)).Run System.anyStep
      (.start (holding [listedUser "" 1000000000, listedUser "usr_a" 0])) [.page] q ∧
      (q.outcome.any fun result => result matches .error .panic) = true :=
  System.Run.of_follow_any (by decide +kernel)

end OidcExchange
