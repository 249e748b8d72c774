import OidcExchange.Program.Placeholders

/-!
# What placeholders resolve to

A text is a sequence of pieces, found from left to right: escapes, placeholders with a name,
markers that are not closed within the bound, and other characters. The scan of its bytes reads
these pieces, and cuts the text only between them. Values are not scanned, since pieces are found
in the text alone.
-/

set_option autoImplicit false

namespace OidcExchange

open Texts

/-! ## Pieces -/

/-- What the scan of a text finds. -/
inductive Piece : Type
  | escape
  | placeholder (name : List Char)
  | unclosed (rest : List Char)
  | plain (c : Char)
  deriving DecidableEq

/-- The name up to the first closing brace, if that is within the bound. -/
def closedName (rest : List Char) : Option (List Char) :=
  if closeMark ∈ rest ∧ (utf8 (rest.takeWhile (· != closeMark))).length < placeholderNameLenMax
  then some (rest.takeWhile (· != closeMark))
  else none

/-- The pieces of a text, from left to right; a marker that is not closed is the last. -/
def pieces : List Char → List Piece
  | [] => []
  | c :: rest =>
    if escapeMark <+: c :: rest then .escape :: pieces (rest.drop 2)
    else if openMark <+: c :: rest then
      match closedName (rest.drop 1) with
      | some name => .placeholder name :: pieces (rest.drop (name.length + 2))
      | none => [.unclosed (rest.drop 1)]
    else .plain c :: pieces rest
termination_by text => text.length

/-- The marks and the name of a placeholder. -/
def markedName (name : List Char) : List Char := openMark ++ (name ++ [closeMark])

/-- How a piece stands in the text. -/
def Piece.source : Piece → List Char
  | .escape => escapeMark
  | .placeholder name => markedName name
  | .unclosed rest => openMark ++ rest
  | .plain c => [c]

variable (environment : Environment) (path : String)

/-- The reasons for which a piece is not resolved. -/
def Piece.Fails : Piece → Prop
  | .placeholder name => name = [] ∨ environment (String.ofList name) = none ∨
      environment (String.ofList name) = some [] ∨
      ∃ value, environment (String.ofList name) = some value ∧ isUtf8 value = false
  | .unclosed _ => True
  | .escape | .plain _ => False

/-- What a piece is replaced by: a placeholder by the value of its variable. -/
def Piece.replacement : Piece → List Char
  | .escape => openMark
  | .placeholder name => ((environment.var (String.ofList name)).getD "").toList
  | .unclosed rest => openMark ++ rest
  | .plain c => [c]

/-- What the scan writes for a piece. -/
def Piece.read : Piece → Except (Fault Error) (List Char)
  | .escape => .ok openMark
  | .placeholder name => String.toList <$> lookUpName environment path (String.ofList name)
  | .unclosed _ => .error (.error (.configError
      ("malformed placeholder at config path '" ++ path ++ "'")))
  | .plain c => .ok [c]

def readPieces : List Piece → Except (Fault Error) (List Char)
  | [] => .ok []
  | piece :: rest => do
    let text ← piece.read environment path
    let more ← readPieces rest
    .ok (text ++ more)

/-! ## Names -/

theorem takeWhile_name {name : List Char} (h : closeMark ∉ name) (after : List Char) :
    (name ++ closeMark :: after).takeWhile (· != closeMark) = name := by
  rw [List.takeWhile_append_of_pos, List.takeWhile_cons_of_neg, List.append_nil]
  · simp
  · intro c hc
    exact bne_iff_ne.mpr fun heq => h (heq ▸ hc)

theorem closedName_eq_some {rest name : List Char} (h : closedName rest = some name) :
    ∃ after, rest = name ++ closeMark :: after ∧ closeMark ∉ name ∧
      (utf8 name).length < placeholderNameLenMax := by
  rw [closedName] at h
  split at h
  · rename_i hclosed
    obtain ⟨hmem, hlength⟩ := hclosed
    obtain ⟨before, after, hrest, hbefore⟩ := List.eq_append_cons_of_mem hmem
    rw [hrest, takeWhile_name hbefore] at h hlength
    cases h
    exact ⟨after, hrest, hbefore, hlength⟩
  · cases h

theorem closedName_append {name : List Char} (hname : closeMark ∉ name) (after : List Char)
    (hlength : (utf8 name).length < placeholderNameLenMax) :
    closedName (name ++ closeMark :: after) = some name := by
  rw [closedName, takeWhile_name hname, if_pos]
  exact ⟨List.mem_append_right name List.mem_cons_self, hlength⟩

theorem utf8_closeMark (after : List Char) :
    utf8 (closeMark :: after) = 125 :: utf8 after := by
  rw [utf8_cons]
  rfl

theorem utf8_singleton_closeMark : utf8 [closeMark] = [125] := rfl

theorem find_closeMark {name : List Char} (hname : closeMark ∉ name) (after : List Char)
    (hlength : (utf8 name).length < placeholderNameLenMax) :
    find (utf8 [closeMark]) ((utf8 (name ++ closeMark :: after)).take
      (min (utf8 (name ++ closeMark :: after)).length placeholderNameLenMax)) =
      some (utf8 name).length := by
  rw [utf8_singleton_closeMark, utf8_append, utf8_closeMark]
  apply find_singleton_take (notMem_utf8 (by decide) hname)
  rw [List.length_append, List.length_cons]
  omega

theorem find_closeMark_eq_none {rest : List Char} (h : closedName rest = none) :
    find (utf8 [closeMark])
      ((utf8 rest).take (min (utf8 rest).length placeholderNameLenMax)) = none := by
  rw [utf8_singleton_closeMark]
  apply find_singleton_eq_none
  intro hmem
  have hclose : closeMark ∈ rest := by
    by_contra hnot
    exact notMem_utf8 (by decide) hnot (List.mem_of_mem_take hmem)
  obtain ⟨name, after, rfl, hname⟩ := List.eq_append_cons_of_mem hclose
  have hlong : placeholderNameLenMax ≤ (utf8 name).length := by
    by_contra hshort
    rw [closedName_append hname after (Nat.lt_of_not_le hshort)] at h
    cases h
  rw [utf8_append, List.take_append_of_le_length (Nat.le_trans (Nat.min_le_right _ _) hlong)]
    at hmem
  exact notMem_utf8 (by decide) hname (List.mem_of_mem_take hmem)

/-- The scan of the bytes finds the name, if there is one within the bound. -/
theorem scanPlaceholderName_utf8 (rest : List Char) :
    scanPlaceholderName (utf8 rest) =
      .ok ((closedName rest).map fun name => (utf8 name, (utf8 name).length + 1)) := by
  cases h : closedName rest with
  | some name =>
    obtain ⟨after, rfl, hname, hlength⟩ := closedName_eq_some h
    have hclosing : slice (utf8 (name ++ closeMark :: after)) (utf8 name).length
        ((utf8 name).length + 1) = some (utf8 [closeMark]) := by
      have hslice := slice_utf8 name [closeMark] after
      rw [utf8_append name, List.length_append, List.append_assoc] at hslice
      exact hslice
    rw [scanPlaceholderName, find_closeMark hname after hlength]
    have hwithin : decide ((utf8 name).length + 1 ≤ placeholderNameLenMax + 1) = true :=
      decide_eq_true (Nat.succ_le_succ (Nat.le_of_lt hlength))
    simp only [hwithin, hclosing, sliceTo_utf8]
    rfl
  | none =>
    rw [scanPlaceholderName, find_closeMark_eq_none h]
    rfl

/-! ## The scan -/

theorem drop_utf8 (before rest : List Char) :
    (utf8 (before ++ rest)).drop (utf8 before).length = utf8 rest := by
  rw [utf8_append, List.drop_left]

/-- The bytes go on with a marker exactly if the characters do. -/
theorem prefix_drop_utf8 (mark before rest : List Char) :
    utf8 mark <+: (utf8 (before ++ rest)).drop (utf8 before).length ↔ mark <+: rest := by
  rw [drop_utf8, utf8_prefix_iff]

theorem lt_length_utf8 (before : List Char) (c : Char) (rest : List Char) :
    (utf8 before).length < (utf8 (before ++ c :: rest)).length := by
  have hpos := length_utf8EncodeChar_pos c
  rw [utf8_append, List.length_append, length_utf8_cons]
  omega

variable {environment path}

theorem expectSome_bind {α β ε : Type} (a : α) (f : α → Except (Fault ε) β) :
    expectSome (some a) >>= f = f a := rfl

theorem resolveFrom_done (before output : List Char) (turns : ℕ) :
    resolveFrom environment path (utf8 (before ++ [])) (turns + 1) (utf8 before).length output =
      .ok output := by
  rw [List.append_nil, resolveFrom, if_neg (Nat.lt_irrefl _)]
  simp only [assertThat, beq_self_eq_true]
  rfl

theorem resolveFrom_escape {before output rest : List Char} {c : Char} {turns : ℕ}
    (h : escapeMark <+: c :: rest) :
    resolveFrom environment path (utf8 (before ++ c :: rest)) (turns + 1) (utf8 before).length
        output =
      resolveFrom environment path (utf8 ((before ++ escapeMark) ++ rest.drop 2)) turns
        (utf8 (before ++ escapeMark)).length (output ++ openMark) := by
  have hrest : c :: rest = escapeMark ++ rest.drop 2 := by
    obtain ⟨more, hmore⟩ := h
    cases hmore
    rfl
  have hlength : (utf8 (before ++ escapeMark)).length = (utf8 before).length + 3 := by
    rw [utf8_append, List.length_append]
    rfl
  rw [resolveFrom, if_pos (lt_length_utf8 before c rest),
    if_pos ((prefix_drop_utf8 _ _ _).mpr h), hlength, List.append_assoc before, ← hrest]

theorem resolveFrom_open {before output rest : List Char} {c : Char} {turns : ℕ}
    (hescape : ¬escapeMark <+: c :: rest) (h : openMark <+: c :: rest) :
    resolveFrom environment path (utf8 (before ++ c :: rest)) (turns + 1) (utf8 before).length
        output =
      readPlaceholder environment path (utf8 (rest.drop 1)) >>= fun (resolved, consumed) =>
        resolveFrom environment path (utf8 (before ++ c :: rest)) turns
          ((utf8 before).length + (2 + consumed)) (output ++ resolved.toList) := by
  have hrest : before ++ c :: rest = (before ++ openMark) ++ rest.drop 1 := by
    obtain ⟨more, hmore⟩ := h
    cases hmore
    rw [List.append_assoc]
    rfl
  have hlength : (utf8 before).length + 2 = (utf8 (before ++ openMark)).length := by
    rw [utf8_append, List.length_append]
    rfl
  have hslice : sliceFrom (utf8 (before ++ c :: rest)) ((utf8 before).length + 2) =
      some (utf8 (rest.drop 1)) := by
    rw [hlength, hrest]
    exact sliceFrom_utf8 _ _
  rw [resolveFrom, if_pos (lt_length_utf8 before c rest),
    if_neg ((prefix_drop_utf8 _ _ _).not.mpr hescape), if_pos ((prefix_drop_utf8 _ _ _).mpr h),
    hslice]
  rfl

theorem resolveFrom_plain {before output rest : List Char} {c : Char} {turns : ℕ}
    (hescape : ¬escapeMark <+: c :: rest) (hopen : ¬openMark <+: c :: rest) :
    resolveFrom environment path (utf8 (before ++ c :: rest)) (turns + 1) (utf8 before).length
        output =
      resolveFrom environment path (utf8 ((before ++ [c]) ++ rest)) turns
        (utf8 (before ++ [c])).length (output ++ [c]) := by
  have hlength : (utf8 (before ++ [c])).length = (utf8 before).length + (utf8 [c]).length := by
    rw [utf8_append, List.length_append]
  rw [resolveFrom, if_pos (lt_length_utf8 before c rest),
    if_neg ((prefix_drop_utf8 _ _ _).not.mpr hescape),
    if_neg ((prefix_drop_utf8 _ _ _).not.mpr hopen), sliceFrom_utf8, hlength,
    List.append_assoc before]
  rw [expectSome_bind, head?_decode_utf8, List.head?_cons, expectSome_bind]
  rfl

theorem readPlaceholder_utf8 (rest : List Char) :
    readPlaceholder environment path (utf8 rest) =
      match closedName rest with
      | none => .error (.error (.configError
          ("malformed placeholder at config path '" ++ path ++ "'")))
      | some name => (fun resolved => (resolved, (utf8 name).length + 1)) <$>
          lookUpName environment path (String.ofList name) := by
  rw [readPlaceholder, scanPlaceholderName_utf8]
  cases closedName rest with
  | none => rfl
  | some name =>
    change lookUpName environment path (String.ofList (Lossy.decode (utf8 name))) >>= _ = _
    rw [Lossy.decode_utf8]
    exact (map_eq_pure_bind _ _).symm

theorem drop_markedName (name after : List Char) :
    (markedName name ++ after).drop (name.length + 3) = after := by
  have hlength : (markedName name).length = name.length + 3 := by
    simp only [markedName, openMark, List.length_append, List.length_cons, List.length_nil]
    omega
  rw [← hlength, List.drop_left]

theorem cons_eq_markedName {c : Char} {rest name : List Char} (hopen : openMark <+: c :: rest)
    (hname : closedName (rest.drop 1) = some name) :
    c :: rest = markedName name ++ rest.drop (name.length + 2) := by
  obtain ⟨more, hmore⟩ := hopen
  cases hmore
  obtain ⟨after, hafter, -, -⟩ := closedName_eq_some hname
  have hmore : more = name ++ closeMark :: after := hafter
  have hmarked : openMark ++ more = markedName name ++ after := by
    rw [hmore, markedName, List.append_assoc, List.append_assoc]
    rfl
  have hdrop : (openMark ++ more).drop (name.length + 3) = after := by
    rw [hmarked, drop_markedName]
  change openMark ++ more = markedName name ++ (openMark ++ more).drop (name.length + 3)
  rw [hdrop, hmarked]

theorem length_utf8_markedName (name : List Char) :
    (utf8 (markedName name)).length = 2 + ((utf8 name).length + 1) := by
  rw [markedName, utf8_append, utf8_append, List.length_append, List.length_append]
  rfl

theorem pieces_nil : pieces [] = [] := by
  rw [pieces]

theorem pieces_escape {c : Char} {rest : List Char} (h : escapeMark <+: c :: rest) :
    pieces (c :: rest) = .escape :: pieces (rest.drop 2) := by
  rw [pieces, if_pos h]

theorem pieces_open {c : Char} {rest : List Char} (hescape : ¬escapeMark <+: c :: rest)
    (h : openMark <+: c :: rest) :
    pieces (c :: rest) = match closedName (rest.drop 1) with
      | some name => .placeholder name :: pieces (rest.drop (name.length + 2))
      | none => [.unclosed (rest.drop 1)] := by
  rw [pieces, if_neg hescape, if_pos h]

theorem pieces_plain {c : Char} {rest : List Char} (hescape : ¬escapeMark <+: c :: rest)
    (h : ¬openMark <+: c :: rest) : pieces (c :: rest) = .plain c :: pieces rest := by
  rw [pieces, if_neg hescape, if_neg h]

theorem readPieces_cons (piece : Piece) (rest : List Piece) (output : List Char) :
    (output ++ ·) <$> readPieces environment path (piece :: rest) =
      piece.read environment path >>= fun text =>
        ((output ++ text) ++ ·) <$> readPieces environment path rest := by
  rw [readPieces]
  cases piece.read environment path with
  | error fault => rfl
  | ok text =>
    cases hrest : readPieces environment path rest with
    | error fault => rfl
    | ok more => exact congrArg Except.ok (List.append_assoc output text more).symm

variable (environment path) in
/-- The scan of the bytes writes what the pieces are read as. -/
theorem resolveFrom_eq (rest : List Char) (before output : List Char) (turns : ℕ)
    (hturns : rest.length < turns) :
    resolveFrom environment path (utf8 (before ++ rest)) turns (utf8 before).length output =
      (output ++ ·) <$> readPieces environment path (pieces rest) := by
  induction hlength : rest.length using Nat.strong_induction_on
    generalizing rest before output turns with
  | h n ih =>
    obtain ⟨turns, rfl⟩ := Nat.exists_eq_succ_of_ne_zero (Nat.ne_zero_of_lt hturns)
    cases rest with
    | nil =>
      rw [pieces_nil, resolveFrom_done]
      exact congrArg Except.ok (List.append_nil output).symm
    | cons c rest =>
      rw [List.length_cons] at hlength hturns
      by_cases hescape : escapeMark <+: c :: rest
      · have hdrop : (rest.drop 2).length ≤ rest.length := by
          rw [List.length_drop]
          exact Nat.sub_le _ _
        rw [resolveFrom_escape hescape, pieces_escape hescape, readPieces_cons,
          ih (rest.drop 2).length (by omega) _ _ _ _ (by omega) rfl]
        rfl
      · by_cases hopen : openMark <+: c :: rest
        · rw [resolveFrom_open hescape hopen, readPlaceholder_utf8, pieces_open hescape hopen]
          cases hclosed : closedName (rest.drop 1) with
          | none => rfl
          | some name =>
            have hsplit := cons_eq_markedName hopen hclosed
            have hshorter : (rest.drop (name.length + 2)).length ≤ rest.length := by
              rw [List.length_drop]
              exact Nat.sub_le _ _
            have hend : (utf8 before).length + (2 + ((utf8 name).length + 1)) =
                (utf8 (before ++ markedName name)).length := by
              rw [utf8_append, List.length_append, length_utf8_markedName]
            rw [readPieces_cons]
            simp only [Piece.read]
            cases lookUpName environment path (String.ofList name) with
            | error fault => rfl
            | ok value =>
              have hstep := ih (rest.drop (name.length + 2)).length (by omega)
                (rest.drop (name.length + 2)) (before ++ markedName name)
                (output ++ value.toList) turns (by omega) rfl
              rw [List.append_assoc, ← hsplit, ← hend] at hstep
              exact hstep
        · rw [resolveFrom_plain hescape hopen, pieces_plain hescape hopen, readPieces_cons,
            ih rest.length (by omega) _ _ _ _ (by omega) rfl]
          rfl

/-- The pieces are the text, cut. -/
theorem flatMap_source_pieces (text : List Char) : (pieces text).flatMap Piece.source = text := by
  induction hlength : text.length using Nat.strong_induction_on generalizing text with
  | h n ih =>
    cases text with
    | nil => rw [pieces_nil, List.flatMap_nil]
    | cons c rest =>
      rw [List.length_cons] at hlength
      have hdrop (k : ℕ) : (pieces (rest.drop k)).flatMap Piece.source = rest.drop k := by
        apply ih (rest.drop k).length _ _ rfl
        rw [List.length_drop]
        omega
      by_cases hescape : escapeMark <+: c :: rest
      · rw [pieces_escape hescape, List.flatMap_cons, hdrop]
        obtain ⟨more, hmore⟩ := hescape
        cases hmore
        rfl
      · by_cases hopen : openMark <+: c :: rest
        · rw [pieces_open hescape hopen]
          cases hclosed : closedName (rest.drop 1) with
          | some name =>
            simp only [List.flatMap_cons, hdrop, Piece.source]
            exact (cons_eq_markedName hopen hclosed).symm
          | none =>
            obtain ⟨more, hmore⟩ := hopen
            cases hmore
            exact List.append_nil _
        · rw [pieces_plain hescape hopen, List.flatMap_cons]
          exact congrArg (c :: ·) (hdrop 0)

/-! ## What is written -/

variable (path)

theorem Environment.var_eq_some {name value : String} :
    environment.var name = some value ↔ environment name = some (bytes value) := by
  rw [Environment.var, Option.bind_eq_some_iff]
  constructor
  · rintro ⟨held, hheld, hvalue⟩
    obtain ⟨htext, hvalue⟩ := Option.ite_none_right_eq_some.mp hvalue
    obtain ⟨cs, rfl⟩ := isUtf8_iff.mp htext
    rw [Lossy.decode_utf8] at hvalue
    cases hvalue
    rw [hheld, bytes_ofList]
  · intro h
    refine ⟨bytes value, h, ?_⟩
    rw [← utf8_toList, if_pos (isUtf8_iff.mpr ⟨_, rfl⟩), Lossy.decode_utf8,
      String.ofList_toList]

theorem Environment.var_eq_none {name : String} : environment.var name = none ↔
    environment name = none ∨ ∃ value, environment name = some value ∧ isUtf8 value = false := by
  rw [Environment.var]
  cases environment name with
  | none => simp
  | some value => simp [Option.bind_some]

theorem Environment.var_eq_empty {name : String} :
    environment.var name = some "" ↔ environment name = some [] :=
  environment.var_eq_some

theorem lookUpName_ok {name value : String} (hname : name ≠ "")
    (hvar : environment.var name = some value) (hvalue : value ≠ "") :
    lookUpName environment path name = .ok value := by
  have hempty : name.isEmpty = false := by rwa [String.isEmpty_eq_false_iff]
  have hblank : value.isEmpty = false := by rwa [String.isEmpty_eq_false_iff]
  simp only [lookUpName, hempty, hvar, hblank]
  rfl

theorem lookUpName_error {name : String}
    (h : name = "" ∨ environment.var name = none ∨ environment.var name = some "") :
    ∃ detail, lookUpName environment path name = .error (.error (.configError detail)) := by
  rw [lookUpName]
  by_cases hempty : name.isEmpty
  · rw [if_pos hempty]
    exact ⟨_, rfl⟩
  · rw [if_neg hempty]
    obtain rfl | hvar | hvar := h
    · exact absurd rfl hempty
    · rw [hvar]
      exact ⟨_, rfl⟩
    · rw [hvar]
      exact ⟨_, rfl⟩

/-- The reasons of a placeholder, as the scan meets them. -/
theorem Piece.fails_placeholder {name : List Char} :
    (Piece.placeholder name).Fails environment ↔ String.ofList name = "" ∨
      environment.var (String.ofList name) = none ∨
      environment.var (String.ofList name) = some "" := by
  have hname : String.ofList name = "" ↔ name = [] := String.ofList_eq_empty_iff
  rw [environment.var_eq_none, environment.var_eq_empty, hname, Piece.Fails]
  constructor
  · rintro (h | h | h | h)
    · exact Or.inl h
    · exact Or.inr (Or.inl (Or.inl h))
    · exact Or.inr (Or.inr h)
    · exact Or.inr (Or.inl (Or.inr h))
  · rintro (h | (h | h) | h)
    · exact Or.inl h
    · exact Or.inr (Or.inl h)
    · exact Or.inr (Or.inr (Or.inr h))
    · exact Or.inr (Or.inr (Or.inl h))

theorem Piece.read_of_not_fails {piece : Piece} (h : ¬piece.Fails environment) :
    piece.read environment path = .ok (piece.replacement environment) := by
  cases piece with
  | escape => rfl
  | placeholder name =>
    rw [Piece.fails_placeholder, not_or, not_or] at h
    obtain ⟨hname, hset, hvalue⟩ := h
    obtain ⟨value, hvar⟩ := Option.ne_none_iff_exists'.mp hset
    have hblank : value ≠ "" := fun heq => hvalue (heq ▸ hvar)
    rw [Piece.read, lookUpName_ok path hname hvar hblank, Piece.replacement, hvar]
    rfl
  | unclosed rest => exact absurd trivial h
  | plain c => rfl

theorem Piece.read_of_fails {piece : Piece} (h : piece.Fails environment) :
    ∃ detail, piece.read environment path = .error (.error (.configError detail)) := by
  cases piece with
  | escape => exact h.elim
  | placeholder name =>
    obtain ⟨detail, herror⟩ := lookUpName_error path (Piece.fails_placeholder.mp h)
    refine ⟨detail, ?_⟩
    rw [Piece.read, herror]
    rfl
  | unclosed rest => exact ⟨_, rfl⟩
  | plain c => exact h.elim

theorem readPieces_of_not_fails {found : List Piece}
    (h : ∀ piece ∈ found, ¬piece.Fails environment) :
    readPieces environment path found =
      .ok (found.flatMap fun piece => piece.replacement environment) := by
  induction found with
  | nil => rfl
  | cons piece rest ih =>
    rw [readPieces, Piece.read_of_not_fails path (h piece List.mem_cons_self),
      ih fun other hother => h other (List.mem_cons_of_mem piece hother)]
    rfl

theorem readPieces_of_fails {found : List Piece} (h : ∃ piece ∈ found, piece.Fails environment) :
    ∃ detail, readPieces environment path found = .error (.error (.configError detail)) := by
  induction found with
  | nil =>
    obtain ⟨piece, hpiece, -⟩ := h
    cases hpiece
  | cons first rest ih =>
    rw [readPieces]
    by_cases hfirst : first.Fails environment
    · obtain ⟨detail, herror⟩ := Piece.read_of_fails path hfirst
      exact ⟨detail, by rw [herror]; rfl⟩
    · rw [Piece.read_of_not_fails path hfirst]
      obtain ⟨piece, hpiece, hfails⟩ := h
      obtain rfl | hlater := List.mem_cons.mp hpiece
      · exact absurd hfails hfirst
      · obtain ⟨detail, herror⟩ := ih ⟨piece, hlater, hfails⟩
        exact ⟨detail, by rw [herror]; rfl⟩

theorem resolvePlaceholdersInStr_eq (text : String) :
    resolvePlaceholdersInStr environment text path =
      String.ofList <$> readPieces environment path (pieces text.toList) := by
  have hturns : text.toList.length < (bytes text).length + 1 := by
    rw [← utf8_toList]
    exact Nat.lt_succ_of_le (length_le_utf8 _)
  have hscan := resolveFrom_eq environment path text.toList [] [] _ hturns
  rw [List.nil_append, utf8_toList] at hscan
  rw [resolvePlaceholdersInStr]
  change resolveFrom environment path (bytes text) _ (utf8 []).length [] >>= _ = _
  rw [hscan]
  cases readPieces environment path (pieces text.toList) <;> rfl

/-! ## Escaped texts -/

/-- A text in which each opening marker is escaped. -/
def escapeMarkers : List Char → List Char
  | [] => []
  | c :: rest =>
    if openMark <+: c :: rest then '$' :: c :: escapeMarkers rest else c :: escapeMarkers rest

theorem openMark_prefix_cons {c : Char} {rest : List Char} :
    openMark <+: c :: rest ↔ c = '$' ∧ rest.head? = some '\x7b' := by
  rw [openMark, List.cons_prefix_cons, eq_comm, List.singleton_prefix_iff_head?_eq_some]

theorem escapeMarkers_cons {c : Char} {rest : List Char} (h : ¬openMark <+: c :: rest) :
    escapeMarkers (c :: rest) = c :: escapeMarkers rest := by
  rw [escapeMarkers, if_neg h]

theorem escapeMarkers_open (rest : List Char) :
    escapeMarkers (openMark ++ rest) = escapeMark ++ escapeMarkers rest := by
  have hbrace : ¬openMark <+: '\x7b' :: rest := by
    rw [openMark_prefix_cons]
    rintro ⟨h, -⟩
    cases h
  have hopen : openMark <+: '$' :: '\x7b' :: rest := List.prefix_append openMark rest
  change escapeMarkers ('$' :: '\x7b' :: rest) = _
  rw [escapeMarkers, if_pos hopen, escapeMarkers_cons hbrace]
  rfl

/-- Only an escape can begin with another character than the text. -/
theorem head?_escapeMarkers (text : List Char) : (escapeMarkers text).head? = text.head? := by
  cases text with
  | nil => rfl
  | cons c rest =>
    rw [escapeMarkers]
    split
    · rename_i h
      rw [(openMark_prefix_cons.mp h).1]
      rfl
    · rfl

/-- An escaped text does not begin with an opening marker. -/
theorem not_open_escapeMarkers (text : List Char) : ¬openMark <+: escapeMarkers text := by
  cases text with
  | nil => exact fun h => absurd h.length_le (by decide)
  | cons c rest =>
    rw [escapeMarkers]
    split
    · rename_i h
      rw [openMark_prefix_cons, (openMark_prefix_cons.mp h).1]
      rintro ⟨-, h⟩
      cases h
    · rename_i h
      rwa [openMark_prefix_cons, head?_escapeMarkers, ← openMark_prefix_cons]

variable (environment) in
/-- The pieces of an escaped text are escapes and other characters, and they are replaced by the
text. -/
theorem pieces_escapeMarkers (text : List Char) :
    (∀ piece ∈ pieces (escapeMarkers text), ¬piece.Fails environment) ∧
      (pieces (escapeMarkers text)).flatMap (fun piece => piece.replacement environment) =
        text := by
  induction hlength : text.length using Nat.strong_induction_on generalizing text with
  | h n ih =>
    cases text with
    | nil =>
      rw [escapeMarkers, pieces_nil]
      exact ⟨nofun, rfl⟩
    | cons c rest =>
      rw [List.length_cons] at hlength
      by_cases hopen : openMark <+: c :: rest
      · obtain ⟨more, hmore⟩ := hopen
        have hescape : escapeMark <+: '$' :: (openMark ++ escapeMarkers more) :=
          List.prefix_append escapeMark _
        have hshorter : more.length < n := by
          have hle := congrArg List.length hmore
          rw [List.length_append, List.length_cons] at hle
          have htwo : openMark.length = 2 := rfl
          omega
        obtain ⟨hsound, htext⟩ := ih more.length hshorter more rfl
        rw [← hmore, escapeMarkers_open]
        change (∀ piece ∈ pieces ('$' :: (openMark ++ escapeMarkers more)), _) ∧
          (pieces ('$' :: (openMark ++ escapeMarkers more))).flatMap _ = _
        rw [pieces_escape hescape]
        change (∀ piece ∈ .escape :: pieces (escapeMarkers more), _) ∧ _
        refine ⟨List.forall_mem_cons.mpr ⟨id, hsound⟩, ?_⟩
        exact congrArg (openMark ++ ·) htext
      · have hkept : ¬openMark <+: c :: escapeMarkers rest := by
          rwa [openMark_prefix_cons, head?_escapeMarkers, ← openMark_prefix_cons]
        have hplain : ¬escapeMark <+: c :: escapeMarkers rest := fun h =>
          not_open_escapeMarkers rest (List.cons_prefix_cons.mp h).2
        obtain ⟨hsound, htext⟩ := ih rest.length (by omega) rest rfl
        rw [escapeMarkers_cons hopen, pieces_plain hplain hkept]
        refine ⟨List.forall_mem_cons.mpr ⟨id, hsound⟩, ?_⟩
        exact congrArg (c :: ·) htext

/-! ## Resolution -/

theorem resolvePlaceholdersInStr_ok {text : String}
    (h : ∀ piece ∈ pieces text.toList, ¬piece.Fails environment) :
    resolvePlaceholdersInStr environment text path = .ok (String.ofList
      ((pieces text.toList).flatMap fun piece => piece.replacement environment)) := by
  rw [resolvePlaceholdersInStr_eq, readPieces_of_not_fails path h]
  rfl

theorem resolvePlaceholdersInStr_error {text : String}
    (h : ∃ piece ∈ pieces text.toList, piece.Fails environment) :
    ∃ detail, resolvePlaceholdersInStr environment text path =
      .error (.error (.configError detail)) := by
  obtain ⟨detail, hread⟩ := readPieces_of_fails path h
  exact ⟨detail, by rw [resolvePlaceholdersInStr_eq, hread]; rfl⟩

/-- What a variable is replaced by is its value, byte for byte. -/
theorem utf8_replacement {name : List Char} (h : ¬(Piece.placeholder name).Fails environment) :
    environment (String.ofList name) =
      some (utf8 ((Piece.placeholder name).replacement environment)) := by
  rw [Piece.fails_placeholder, not_or, not_or] at h
  obtain ⟨value, hvar⟩ := Option.ne_none_iff_exists'.mp h.2.1
  rw [Piece.replacement, hvar, Option.getD_some, utf8_toList]
  exact environment.var_eq_some.mp hvar

/-- A text resolves exactly if each of its placeholders is closed within the bound and names a
variable whose value is a text and not empty. Each piece is then replaced, and nothing else is;
otherwise there is an error. Escaping the markers of a text protects it. -/
theorem placeholder_resolution_exact (environment : Environment) (path text : String) :
    (pieces text.toList).flatMap Piece.source = text.toList ∧
      (∀ result, resolvePlaceholdersInStr environment text path = .ok result ↔
        (∀ piece ∈ pieces text.toList, ¬piece.Fails environment) ∧
          result.toList =
            (pieces text.toList).flatMap fun piece => piece.replacement environment) ∧
      (∀ name, ¬(Piece.placeholder name).Fails environment →
        environment (String.ofList name) =
          some (utf8 ((Piece.placeholder name).replacement environment))) ∧
      ((∃ detail, resolvePlaceholdersInStr environment text path =
          .error (.error (.configError detail))) ↔
        ∃ piece ∈ pieces text.toList, piece.Fails environment) ∧
      resolvePlaceholdersInStr environment (String.ofList (escapeMarkers text.toList)) path =
        .ok text := by
  refine ⟨flatMap_source_pieces _, fun result => ⟨fun hok => ?_, ?_⟩, fun _ => utf8_replacement,
    ⟨?_, resolvePlaceholdersInStr_error path⟩, ?_⟩
  · by_cases hfails : ∃ piece ∈ pieces text.toList, piece.Fails environment
    · obtain ⟨detail, herror⟩ := resolvePlaceholdersInStr_error path hfails
      rw [herror] at hok
      cases hok
    · have hsound : ∀ piece ∈ pieces text.toList, ¬piece.Fails environment :=
        fun piece hpiece hfail => hfails ⟨piece, hpiece, hfail⟩
      rw [resolvePlaceholdersInStr_ok path hsound] at hok
      cases hok
      exact ⟨hsound, String.toList_ofList⟩
  · rintro ⟨hsound, hresult⟩
    rw [resolvePlaceholdersInStr_ok path hsound, ← hresult, String.ofList_toList]
  · rintro ⟨detail, herror⟩
    by_contra hnone
    have hsound : ∀ piece ∈ pieces text.toList, ¬piece.Fails environment :=
      fun piece hpiece hfail => hnone ⟨piece, hpiece, hfail⟩
    rw [resolvePlaceholdersInStr_ok path hsound] at herror
    cases herror
  · obtain ⟨hsound, hreplaced⟩ := pieces_escapeMarkers environment text.toList
    have hescaped : (String.ofList (escapeMarkers text.toList)).toList =
        escapeMarkers text.toList := String.toList_ofList
    rw [← hescaped] at hsound
    rw [resolvePlaceholdersInStr_ok path hsound, hescaped, hreplaced, String.ofList_toList]

def unreadable : Environment := fun name => if name = "V" then some [0xFF] else none

/-- A variable may be set, and not empty, to bytes that are not a text; naming it fails. -/
theorem non_unicode_value_fails :
    ∃ (environment : Environment) (path text : String),
      pieces text.toList = [.placeholder ['V']] ∧ environment "V" = some [0xFF] ∧
      ∃ detail, resolvePlaceholdersInStr environment text path =
        .error (.error (.configError detail)) := by
  have hpieces : pieces "$\x7bV\x7d".toList = [.placeholder ['V']] := by
    have hclosed : closedName ['V', '\x7d'] = some ['V'] := by decide
    change pieces ('$' :: ['\x7b', 'V', '\x7d']) = _
    rw [pieces_open (by decide) (by decide)]
    change (match closedName ['V', '\x7d'] with
      | some name => Piece.placeholder name :: pieces (['\x7b', 'V', '\x7d'].drop (name.length + 2))
      | none => [Piece.unclosed ['V', '\x7d']]) = _
    rw [hclosed]
    exact congrArg (Piece.placeholder ['V'] :: ·) pieces_nil
  have hfails : (Piece.placeholder ['V']).Fails unreadable :=
    Or.inr (Or.inr (Or.inr ⟨[0xFF], rfl, by decide⟩))
  refine ⟨unreadable, "p", "$\x7bV\x7d", hpieces, rfl, resolvePlaceholdersInStr_error "p"
    ⟨.placeholder ['V'], ?_, hfails⟩⟩
  rw [hpieces]
  exact List.mem_cons_self

/-! ## Whole configurations -/

mutual

/-- The texts of a configuration, each with its path. -/
def ConfigValue.texts : ConfigValue → String → List (String × String)
  | .string text, path => [(path, text)]
  | .table entries, path => entryTexts entries path
  | .array items, path => itemTexts items 0 path
  | .nil, _ | .boolean _, _ | .integer _, _ | .float _, _ => []

def entryTexts : List (String × ConfigValue) → String → List (String × String)
  | [], _ => []
  | entry :: rest, path => textsOfEntry entry path ++ entryTexts rest path

def textsOfEntry : String × ConfigValue → String → List (String × String)
  | (key, nested), path => nested.texts (nestedPath path key)

def itemTexts : List ConfigValue → ℕ → String → List (String × String)
  | [], _, _ => []
  | item :: rest, index, path =>
    item.texts (itemPath path index) ++ itemTexts rest (index + 1) path

end

/-- Nothing in the texts fails. -/
def NoneFails (environment : Environment) (texts : List (String × String)) : Prop :=
  ∀ path text, (path, text) ∈ texts → ∀ piece ∈ pieces text.toList, ¬piece.Fails environment

theorem noneFails_nil : NoneFails environment [] := nofun

theorem noneFails_append {these those : List (String × String)} :
    NoneFails environment (these ++ those) ↔
      NoneFails environment these ∧ NoneFails environment those := by
  constructor
  · exact fun h => ⟨fun path text hmem => h path text (List.mem_append_left those hmem),
      fun path text hmem => h path text (List.mem_append_right these hmem)⟩
  · rintro ⟨hthese, hthose⟩ path text hmem
    exact (List.mem_append.mp hmem).elim (hthese path text) (hthose path text)

theorem noneFails_singleton {text : String} : NoneFails environment [(path, text)] ↔
    ∃ result, resolvePlaceholdersInStr environment text path = .ok result := by
  constructor
  · exact fun h => ⟨_, resolvePlaceholdersInStr_ok path (h path text List.mem_cons_self)⟩
  · rintro ⟨result, hok⟩ path' text' hmem piece hpiece hfails
    cases List.mem_singleton.mp hmem
    obtain ⟨detail, herror⟩ := resolvePlaceholdersInStr_error path ⟨piece, hpiece, hfails⟩
    rw [herror] at hok
    cases hok

theorem exists_map_ok {ε α β : Type} {x : Except ε α} {f : α → β} :
    (∃ b, f <$> x = .ok b) ↔ ∃ a, x = .ok a := by
  cases x with
  | error e => exact ⟨fun ⟨b, h⟩ => (by cases h), fun ⟨a, h⟩ => (by cases h)⟩
  | ok a => exact ⟨fun _ => ⟨a, rfl⟩, fun _ => ⟨f a, rfl⟩⟩

theorem exists_cons_ok {ε α : Type} {x : Except ε α} {xs : Except ε (List α)} :
    (∃ all, (do let a ← x; let more ← xs; .ok (a :: more)) = .ok all) ↔
      (∃ a, x = .ok a) ∧ ∃ more, xs = .ok more := by
  cases x with
  | error e => exact ⟨fun ⟨b, h⟩ => (by cases h), fun ⟨⟨a, h⟩, _⟩ => (by cases h)⟩
  | ok a =>
    cases xs with
    | error e => exact ⟨fun ⟨b, h⟩ => (by cases h), fun ⟨_, a, h⟩ => (by cases h)⟩
    | ok more => exact ⟨fun _ => ⟨⟨a, rfl⟩, more, rfl⟩, fun _ => ⟨a :: more, rfl⟩⟩

mutual

/-- A configuration resolves exactly if none of its texts fails: one that does aborts the whole. -/
theorem resolvePlaceholders_iff (environment : Environment) (value : ConfigValue)
    (path : String) : (∃ resolved, resolvePlaceholders environment value path = .ok resolved) ↔
      NoneFails environment (value.texts path) := by
  match value with
  | .string text =>
    rw [resolvePlaceholders, exists_map_ok, ConfigValue.texts, noneFails_singleton]
  | .table entries =>
    rw [resolvePlaceholders, exists_map_ok, ConfigValue.texts]
    exact resolveEntries_iff environment entries path
  | .array items =>
    rw [resolvePlaceholders, exists_map_ok, ConfigValue.texts]
    exact resolveItems_iff environment items 0 path
  | .nil | .boolean _ | .integer _ | .float _ => exact ⟨fun _ => noneFails_nil, fun _ => ⟨_, rfl⟩⟩

theorem resolveEntries_iff (environment : Environment) (entries : List (String × ConfigValue))
    (path : String) : (∃ resolved, resolveEntries environment entries path = .ok resolved) ↔
      NoneFails environment (entryTexts entries path) := by
  match entries with
  | [] => exact ⟨fun _ => noneFails_nil, fun _ => ⟨[], rfl⟩⟩
  | entry :: rest =>
    rw [resolveEntries, exists_cons_ok, entryTexts, noneFails_append,
      resolveEntry_iff environment entry path, resolveEntries_iff environment rest path]

theorem resolveEntry_iff (environment : Environment) (entry : String × ConfigValue)
    (path : String) : (∃ resolved, resolveEntry environment entry path = .ok resolved) ↔
      NoneFails environment (textsOfEntry entry path) := by
  match entry with
  | (key, nested) =>
    rw [resolveEntry, exists_map_ok, textsOfEntry]
    exact resolvePlaceholders_iff environment nested (nestedPath path key)

theorem resolveItems_iff (environment : Environment) (items : List ConfigValue) (index : ℕ)
    (path : String) : (∃ resolved, resolveItems environment items index path = .ok resolved) ↔
      NoneFails environment (itemTexts items index path) := by
  match items with
  | [] => exact ⟨fun _ => noneFails_nil, fun _ => ⟨[], rfl⟩⟩
  | item :: rest =>
    rw [resolveItems, exists_cons_ok, itemTexts, noneFails_append,
      resolvePlaceholders_iff environment item (itemPath path index),
      resolveItems_iff environment rest (index + 1) path]

end

end OidcExchange
