import OidcExchange.Analysis.FormMasking
import OidcExchange.Analysis.MemberMasking
import OidcExchange.Program.UpstreamSlices

/-!
# Every slice of redaction is between characters

On the bytes of a text, every loop that masks it ends within its turns and every slice falls
between characters: what comes out is the bytes of what the functions on characters give.
-/

set_option autoImplicit false

namespace OidcExchange

namespace Sliced

open Texts

/-! ## Decoding -/

theorem digitValue_lt {b h : UInt8} (hvalue : Percent.digitValue b = some h) : h < 16 := by
  rw [Percent.digitValue] at hvalue
  simp only [UInt8.lt_iff_toNat_lt, UInt8.le_iff_toNat_le] at hvalue ⊢
  split at hvalue
  · rename_i hdigit
    cases hvalue
    rw [UInt8.toNat_sub_of_le _ _ (UInt8.le_iff_toNat_le.mpr hdigit.1)]
    simp at hdigit ⊢
    omega
  · split at hvalue
    · rename_i hupper
      cases hvalue
      rw [UInt8.toNat_sub_of_le _ _ (UInt8.le_iff_toNat_le.mpr (by simp at hupper ⊢; omega))]
      simp at hupper ⊢
      omega
    · split at hvalue
      · rename_i hlower
        cases hvalue
        rw [UInt8.toNat_sub_of_le _ _ (UInt8.le_iff_toNat_le.mpr (by simp at hlower ⊢; omega))]
        simp at hlower ⊢
        omega
      · cases hvalue

/-- Two digits are put together. -/
theorem shift_or {h l : UInt8} (hh : h < 16) (hl : l < 16) : h <<< 4 ||| l = 16 * h + l := by
  have hall : ∀ h < 16, ∀ l < 16,
      UInt8.ofNat h <<< 4 ||| UInt8.ofNat l = 16 * UInt8.ofNat h + UInt8.ofNat l := by
    decide +kernel
  have heq := hall h.toNat hh l.toNat hl
  rwa [UInt8.ofNat_toNat, UInt8.ofNat_toNat] at heq

theorem escapedAt_drop (bs : List UInt8) (i : ℕ) : escapedAt bs i = escapedAt (bs.drop i) 0 := by
  rw [escapedAt, escapedAt, List.getElem?_drop, List.getElem?_drop]

/-- One step of decoding. -/
theorem decode_cons (b : UInt8) (rest : List UInt8) :
    Percent.decode (b :: rest) =
      match if b = Percent.sign then escapedAt (b :: rest) 0 else none with
      | some byte => byte :: Percent.decode (rest.drop 2)
      | none => b :: Percent.decode rest := by
  match rest with
  | [] =>
    have hnone : escapedAt [b] 0 = none := rfl
    rw [hnone, ite_self]
    rfl
  | [high] =>
    have hnone : escapedAt [b, high] 0 = none := rfl
    rw [hnone, ite_self]
    rfl
  | high :: low :: rest =>
    have hescaped : escapedAt (b :: high :: low :: rest) 0 =
        (Percent.digitValue high).bind fun h => (Percent.digitValue low).bind fun l =>
          some (h <<< 4 ||| l) := rfl
    rw [Percent.decode, hescaped]
    cases hhigh : Percent.digitValue high with
    | none =>
      rw [Option.bind_none, ite_self]
    | some h =>
      cases hlow : Percent.digitValue low with
      | none =>
        rw [Option.bind_some, Option.bind_none, ite_self]
      | some l =>
        rw [Option.bind_some, Option.bind_some]
        by_cases hb : b = Percent.sign
        · rw [if_pos hb]
          dsimp only
          rw [if_pos hb, shift_or (digitValue_lt hhigh) (digitValue_lt hlow)]
          rfl
        · rw [if_neg hb]
          dsimp only
          rw [if_neg hb]

theorem percentDecodeFrom_eq {bs : List UInt8} (turns i : ℕ) (out : List UInt8)
    (hturns : bs.length - i < turns) :
    percentDecodeFrom bs turns i out = .ok (out ++ Percent.decode (bs.drop i)) := by
  induction turns generalizing i out with
  | zero => exact absurd hturns (Nat.not_lt_zero _)
  | succ turns ih =>
    rw [percentDecodeFrom]
    by_cases hi : i < bs.length
    · have hdrop : bs.drop i = bs[i] :: bs.drop (i + 1) := List.drop_eq_getElem_cons hi
      rw [if_pos hi, List.getElem?_eq_getElem hi, hdrop, decode_cons, ← hdrop, ← escapedAt_drop]
      change (match if bs[i] = Percent.sign then escapedAt bs i else none with
        | some byte => percentDecodeFrom bs turns (i + 3) (out ++ [byte])
        | none => percentDecodeFrom bs turns (i + 1) (out ++ [bs[i]])) = _
      cases if bs[i] = Percent.sign then escapedAt bs i else none with
      | none =>
        dsimp only
        rw [ih _ _ (by omega), List.append_assoc, List.singleton_append]
      | some byte =>
        dsimp only
        rw [ih _ _ (by omega), List.append_assoc, List.singleton_append, List.drop_drop]
    · rw [if_neg hi, List.drop_eq_nil_of_le (Nat.le_of_not_lt hi), Percent.decode, List.append_nil]

theorem percentDecode_utf8 (text : List Char) :
    percentDecode (utf8 text) = .ok (utf8 (OidcExchange.percentDecode text)) := by
  rw [percentDecode, percentDecodeFrom_eq _ _ _ (by omega), List.drop_zero, List.nil_append]
  rfl

/-! ## Pairs of a form -/

theorem signAt_offset (text : List Char) (n : ℕ) :
    signAt (utf8 text) (offset text n) = .ok (decide (['='] <+: text.drop n)) := by
  rw [signAt, sliceFrom_offset]
  change Except.ok (decide (utf8 ['='] <+: utf8 (text.drop n))) = _
  rw [decide_eq_decide.mpr utf8_prefix_iff]

/-- What stands somewhere in a text ends in it. -/
theorem le_length_of_prefix {word text : List Char} {n : ℕ} (hword : word ≠ [])
    (h : word <+: text.drop n) : n + word.length ≤ text.length := by
  have hle := h.length_le
  have hpos := List.length_pos_iff.mpr hword
  rw [List.length_drop] at hle
  omega

theorem findFormPairFrom_offset (text : List Char) {key : List Char} (hkey : key ≠ []) (turns turns' n : ℕ)
    (hturns : text.length - n < turns) (hturns' : text.length - n < turns') :
    findFormPairFrom (utf8 text) (utf8 key) turns (offset text n) =
      .ok ((OidcExchange.findFormPairFrom text key turns' n).map (offset text)) := by
  induction turns generalizing turns' n with
  | zero => exact absurd hturns (Nat.not_lt_zero _)
  | succ turns ih =>
    cases turns' with
    | zero => exact absurd hturns' (Nat.not_lt_zero _)
    | succ turns' =>
      rw [findFormPairFrom, OidcExchange.findFormPairFrom, sliceFrom_offset]
      dsimp only [expectSome, bind, Except.bind]
      rw [find_utf8 hkey]
      cases hfind : find key (text.drop n) with
      | none => rfl
      | some rel =>
        have hstand : key <+: text.drop (n + rel) := by
          rw [← List.drop_drop]
          exact (find_eq_some hfind).1
        have hpos : offset text n + offset (text.drop n) rel = offset text (n + rel) :=
          (offset_add text n rel).symm
        have hafter : offset text (n + rel) + (utf8 key).length =
            offset text (n + rel + key.length) := (offset_add_word hstand).symm
        have hle := le_length_of_prefix hkey hstand
        have hkeylen := List.length_pos_iff.mpr hkey
        dsimp only [Option.map_some]
        rw [hpos, hafter, sliceTo_offset]
        change (if boundaryBefore (Lossy.decode (utf8 (text.take (n + rel)))) = true then _
          else _) = _
        rw [Lossy.decode_utf8, signAt_offset]
        have hnext := ih turns' (n + rel + key.length) (by omega) (by omega)
        by_cases hboundary : boundaryBefore (text.take (n + rel)) = true
        · rw [if_pos hboundary]
          by_cases hsign : ['='] <+: text.drop (n + rel + key.length)
          · rw [if_pos ⟨hboundary, hsign⟩, decide_eq_true hsign]
            rfl
          · rw [if_neg fun h => hsign h.2, decide_eq_false hsign, ← hnext]
            rfl
        · rw [if_neg hboundary, if_neg Bool.false_ne_true, hnext,
            if_neg fun h => hboundary h.1]

theorem findFormPair_utf8 {key : List Char} (hkey : key ≠ []) (text : List Char) :
    findFormPair (utf8 text) (utf8 key) =
      .ok ((OidcExchange.findFormPair text key).map (offset text)) := by
  have hlen := length_le_utf8 text
  have h := findFormPairFrom_offset text hkey ((utf8 text).length + 1) (text.length + 1) 0
    (by omega) (by omega)
  rwa [offset_zero] at h

/-- A place of a key by its position in the bytes. -/
def place (text : List Char) (e : ℕ × List Char) : ℕ × List Char := (offset text e.1, e.2)

/-- What is kept of a place and of one that is found after it. -/
def earlier (best : Option (ℕ × List Char)) (pos : ℕ) (key : List Char) :
    Option (ℕ × List Char) :=
  if best.all fun e => pos < e.1 then some (pos, key) else best

theorem earlier_offset {text : List Char} {best : Option (ℕ × List Char)}
    (hbest : ∀ e ∈ best, e.1 ≤ text.length) (pos : ℕ) (key : List Char) :
    earlier (best.map (place text)) (offset text pos) key =
      (earlier best pos key).map (place text) := by
  cases best with
  | none => rfl
  | some e =>
    have hiff := offset_lt_iff pos (hbest e rfl)
    by_cases hlt : pos < e.1
    · simp [earlier, place, hiff, hlt]
    · simp [earlier, place, hiff, hlt]

/-- The earlier of the best place so far and that of a key, if the key is found. -/
def nearer (found : List Char → Option ℕ) (best : Option (ℕ × List Char)) (key : List Char) :
    Option (ℕ × List Char) :=
  (found key).elim best fun pos => earlier best pos key

theorem earliest_eq_foldl (found : List Char → Option ℕ) :
    earliest found = sensitiveFormKeys.foldl (nearer found) none := by
  refine congrArg (fun step => List.foldl step none sensitiveFormKeys) ?_
  funext best key
  unfold nearer
  cases found key <;> rfl

/-- The earliest place is the same in the bytes. -/
theorem earliest_offset {text : List Char} {findKey : List Char → Option ℕ}
    (hfind : ∀ key ∈ sensitiveFormKeys, ∀ pos, findKey key = some pos → pos ≤ text.length) :
    (earliest fun key => (findKey key).map (offset text)) =
      (earliest findKey).map (place text) := by
  suffices h : ∀ (keys : List (List Char)) (best : Option (ℕ × List Char)),
      (∀ key ∈ keys, ∀ pos, findKey key = some pos → pos ≤ text.length) →
      (∀ e ∈ best, e.1 ≤ text.length) →
      keys.foldl (nearer fun key => (findKey key).map (offset text)) (best.map (place text)) =
        (keys.foldl (nearer findKey) best).map (place text) by
    rw [earliest_eq_foldl, earliest_eq_foldl]
    exact h sensitiveFormKeys none hfind fun e he => by cases he
  intro keys
  induction keys with
  | nil => exact fun _ _ _ => rfl
  | cons key keys ih =>
    intro best hkeys hbest
    have hrest := fun key' hmem => hkeys key' (List.mem_cons_of_mem key hmem)
    rw [List.foldl_cons, List.foldl_cons, nearer, nearer]
    cases hkey : findKey key with
    | none => exact ih best hrest hbest
    | some pos =>
      have hpos : ∀ e ∈ earlier best pos key, e.1 ≤ text.length := by
        intro e he
        rw [earlier] at he
        split at he
        · cases he
          exact hkeys key List.mem_cons_self pos hkey
        · exact hbest e he
      dsimp only [Option.map_some, Option.elim_some]
      rw [earlier_offset hbest]
      exact ih (earlier best pos key) hrest hpos

/-- If every search succeeds, so does that for the earliest place. -/
theorem earliestPair_eq {findKey : List Char → Except (Fault Empty) (Option ℕ)}
    {found : List Char → Option ℕ} (h : ∀ key ∈ sensitiveFormKeys, findKey key = .ok (found key)) :
    earliestPair findKey sensitiveFormKeys none = .ok (earliest found) := by
  suffices hall : ∀ (keys : List (List Char)) (best : Option (ℕ × List Char)),
      (∀ key ∈ keys, findKey key = .ok (found key)) →
      earliestPair findKey keys best = .ok (keys.foldl (nearer found) best) by
    rw [earliest_eq_foldl]
    exact hall sensitiveFormKeys none h
  intro keys
  induction keys with
  | nil => exact fun _ _ => rfl
  | cons key keys ih =>
    intro best hkeys
    have hrest : ∀ key ∈ keys, findKey key = .ok (found key) :=
      fun key' hmem => hkeys key' (List.mem_cons_of_mem key hmem)
    rw [earliestPair, hkeys key List.mem_cons_self, List.foldl_cons, nearer]
    cases hkey : found key with
    | none => exact ih best hrest
    | some pos => exact ih _ hrest

theorem nextPair_offset (rest : List Char) (n : ℕ) :
    nextPair (utf8 rest) (offset rest n) = .ok (utf8 (OidcExchange.nextPair (rest.drop n))) := by
  rw [nextPair, OidcExchange.nextPair, sliceFrom_offset]
  dsimp only [expectSome, bind, Except.bind]
  rw [find_utf8 (by decide)]
  cases hfind : find ['&'] (rest.drop n) with
  | none => rfl
  | some k =>
    dsimp only [Option.map_some]
    rw [← offset_add, sliceFrom_offset, List.drop_drop]

theorem findFormPair_le {text key : List Char} (hkey : key ∈ sensitiveFormKeys) {pos : ℕ}
    (h : OidcExchange.findFormPair text key = some pos) : pos ≤ text.length := by
  have hpair := ((findsFirst_findFormPair text).found key hkey pos h).1
  have hle := le_length_of_prefix (by simp [assigned]) hpair.1
  omega

theorem maskFormPairsFrom_utf8 (turns turns' : ℕ) (rest : List Char) (out : List UInt8)
    (hturns : rest.length < turns) (hturns' : rest.length < turns') :
    maskFormPairsFrom turns (utf8 rest) out =
      .ok (out ++ utf8 (OidcExchange.maskFormPairsFrom turns' rest)) := by
  induction turns generalizing turns' rest out with
  | zero => exact absurd hturns (Nat.not_lt_zero _)
  | succ turns ih =>
    cases turns' with
    | zero => exact absurd hturns' (Nat.not_lt_zero _)
    | succ turns' =>
      have hfind : ∀ key ∈ sensitiveFormKeys, findFormPair (utf8 rest) (utf8 key) =
          .ok ((OidcExchange.findFormPair rest key).map (offset rest)) :=
        fun key hkey => findFormPair_utf8 (keys_apart key hkey).1 rest
      rw [maskFormPairsFrom, OidcExchange.maskFormPairsFrom, earliestPair_eq hfind,
        earliest_offset fun key hkey _ h => findFormPair_le hkey h]
      cases hearliest : earliest (OidcExchange.findFormPair rest) with
      | none => rfl
      | some found =>
        obtain ⟨pos, key⟩ := found
        obtain ⟨hkey, hpair, -⟩ := earliest_eq_some (findsFirst_findFormPair rest) hearliest
        have hassigned : (assigned key).length = key.length + 1 := by simp [assigned]
        have hafter : offset rest pos + (utf8 key).length + 1 =
            offset rest (pos + key.length + 1) := by
          rw [Nat.add_assoc pos, ← hassigned, offset_add_word hpair.1, assigned, utf8_append,
            List.length_append, Nat.add_assoc]
          rfl
        have hle := le_length_of_prefix (by simp [assigned]) hpair.1
        have hshorter := length_nextPair_le (rest.drop (pos + key.length + 1))
        rw [List.length_drop] at hshorter
        change (expectSome (sliceTo (utf8 rest) (offset rest pos)) >>= fun head =>
          nextPair (utf8 rest) (offset rest pos + (utf8 key).length + 1) >>= fun next =>
          maskFormPairsFrom turns next (out ++ head ++ utf8 key ++ utf8 ['='] ++ utf8 redacted)) = _
        rw [sliceTo_offset, hafter, nextPair_offset]
        change maskFormPairsFrom turns _ _ = _
        rw [ih turns' _ _ (by omega) (by omega)]
        simp only [utf8_append, utf8_cons, List.append_assoc, utf8_nil, List.append_nil]

theorem maskFormPairs_utf8 (text : List Char) :
    maskFormPairs (utf8 text) = .ok (utf8 (OidcExchange.maskFormPairs text)) := by
  have hlen := length_le_utf8 text
  rw [maskFormPairs, maskFormPairsFrom_utf8 _ (text.length + 1) text [] (by omega) (by omega),
    List.nil_append]
  rfl

/-! ## Members of an object -/

/-- The first character that is no white space, with its position. -/
theorem findVisible_eq (position : ℕ) (cs : List Char) :
    (findVisible (charIndicesFrom position cs) = none ∧
      cs.findIdx? (fun ch => !isWhiteSpace ch) = none) ∨
    ∃ spaces c rest, cs = spaces ++ c :: rest ∧
      cs.findIdx? (fun ch => !isWhiteSpace ch) = some spaces.length ∧
      findVisible (charIndicesFrom position cs) =
        some ((position + (utf8 spaces).length, c),
          charIndicesFrom (position + (utf8 (spaces ++ [c])).length) rest) := by
  induction cs generalizing position with
  | nil => exact Or.inl ⟨rfl, rfl⟩
  | cons c cs ih =>
    rw [charIndicesFrom, findVisible, List.findIdx?_cons]
    dsimp only
    by_cases hc : (!isWhiteSpace c) = true
    · rw [if_pos hc, if_pos hc]
      exact Or.inr ⟨[], c, cs, rfl, rfl, rfl⟩
    · rw [if_neg hc, if_neg hc]
      obtain ⟨hnone, hidx⟩ | ⟨spaces, d, rest, rfl, hidx, hfound⟩ :=
        ih (position + (utf8 [c]).length)
      · exact Or.inl ⟨hnone, by rw [hidx]; rfl⟩
      · refine Or.inr ⟨c :: spaces, d, rest, rfl, by rw [hidx]; rfl, ?_⟩
        rw [hfound]
        simp only [List.cons_append, utf8_cons, utf8_nil, List.append_nil, List.length_append,
          Nat.add_assoc]

/-- The range of a string, by its positions in the bytes. -/
def placeRange (text : List Char) (range : ℕ × ℕ) : ℕ × ℕ :=
  (offset text range.1, offset text range.2)

theorem rangeAfterColon_offset (text : List Char) (n : ℕ) :
    rangeAfterColon (utf8 text) (charIndicesFrom (offset text n) (text.drop n)) =
      .ok (((text.drop n).findIdx? fun ch => !isWhiteSpace ch).bind fun quote =>
        if text[n + quote]? ≠ some '"' then none
        else (find ['"'] (text.drop (n + quote + 1))).bind fun closing =>
          some (placeRange text (n + quote + 1, closing + (n + quote + 1)))) := by
  rw [rangeAfterColon]
  obtain ⟨hnone, hidx⟩ | ⟨spaces, c, rest, hsplit, hidx, hfound⟩ :=
    findVisible_eq (offset text n) (text.drop n)
  · rw [hnone, hidx]
    rfl
  have hat : text[n + spaces.length]? = some c := by
    rw [← List.getElem?_drop, hsplit, getElem?_append_cons]
  rw [hfound, hidx, Option.bind_some, hat]
  dsimp only
  by_cases hc : c = '"'
  · have hword : spaces ++ ['"'] <+: text.drop n := by
      rw [hsplit, hc, List.append_cons spaces _ rest]
      exact List.prefix_append _ _
    have hstart : offset text n + (utf8 spaces).length + 1 =
        offset text (n + spaces.length + 1) := by
      have hplace := offset_add_word hword
      rw [List.length_append, List.length_singleton, utf8_append, List.length_append] at hplace
      rw [Nat.add_assoc n, hplace, Nat.add_assoc]
      rfl
    rw [if_neg (not_not.mpr hc), if_neg (not_not.mpr (congrArg some hc)), hstart,
      sliceFrom_offset]
    dsimp only [expectSome, bind, Except.bind]
    rw [find_utf8 (by decide)]
    cases hfind : find ['"'] (text.drop (n + spaces.length + 1)) with
    | none => rfl
    | some k =>
      have hclosing : offset (text.drop (n + spaces.length + 1)) k +
          offset text (n + spaces.length + 1) = offset text (k + (n + spaces.length + 1)) := by
        rw [Nat.add_comm k, offset_add text (n + spaces.length + 1) k, Nat.add_comm]
      rw [Option.bind_some, placeRange, ← hclosing]
      rfl
  · rw [if_pos hc, if_pos fun h => hc (Option.some.inj h)]

theorem jsonStringValueRange_utf8 (afterKey : List Char) :
    jsonStringValueRange (utf8 afterKey) =
      .ok ((OidcExchange.jsonStringValueRange afterKey).map (placeRange afterKey)) := by
  rw [jsonStringValueRange, OidcExchange.jsonStringValueRange, charIndices, Lossy.decode_utf8]
  obtain ⟨hnone, hidx⟩ | ⟨spaces, c, rest, hsplit, hidx, hfound⟩ := findVisible_eq 0 afterKey
  · rw [hnone, hidx]
    rfl
  have hat : afterKey[spaces.length]? = some c := by
    rw [hsplit, getElem?_append_cons]
  have hrest : afterKey.drop (spaces.length + 1) = rest := by
    rw [hsplit, drop_append_cons]
  have hoffset : 0 + (utf8 (spaces ++ [c])).length = offset afterKey (spaces.length + 1) := by
    have hword : spaces ++ [c] <+: afterKey.drop 0 := by
      rw [List.drop_zero, hsplit, List.append_cons spaces c rest]
      exact List.prefix_append _ _
    have hplace := offset_add_word hword
    rw [List.length_append, List.length_singleton, Nat.zero_add, offset_zero] at hplace
    exact hplace.symm
  rw [hfound, hidx, hoffset, ← hrest]
  dsimp only [Option.bind_eq_bind, Option.bind_some]
  rw [hat]
  by_cases hc : c = ':'
  · rw [if_neg (not_not.mpr hc), if_neg (not_not.mpr (congrArg some hc)), rangeAfterColon_offset,
      Option.map_bind]
    congr 2
    funext quote
    by_cases hquote : afterKey[spaces.length + 1 + quote]? = some '"'
    · simp only [Function.comp_apply, hquote, ne_eq, not_true_eq_false, if_false, Option.map_bind]
      rfl
    · simp only [Function.comp_apply, hquote, ne_eq, not_false_eq_true, if_true, Option.map_none]
  · rw [if_pos hc, if_pos fun h => hc (Option.some.inj h)]
    rfl

theorem maskJsonValuesFrom_utf8 (turns turns' : ℕ) (rest : List Char) (out : List UInt8)
    (hturns : rest.length < turns) (hturns' : rest.length < turns') :
    maskJsonValuesFrom turns (utf8 rest) out =
      .ok (out ++ utf8 (OidcExchange.maskJsonValuesFrom turns' rest)) := by
  induction turns generalizing turns' rest out with
  | zero => exact absurd hturns (Nat.not_lt_zero _)
  | succ turns ih =>
    cases turns' with
    | zero => exact absurd hturns' (Nat.not_lt_zero _)
    | succ turns' =>
      have hfind : (fun key => find (utf8 (quoted key)) (utf8 rest)) =
          fun key => (find (quoted key) rest).map (offset rest) := by
        funext key
        exact find_utf8 (by simp [quoted]) rest
      rw [maskJsonValuesFrom, OidcExchange.maskJsonValuesFrom, hfind,
        earliest_offset fun key _ _ h => (find_eq_some h).2.1]
      cases hearliest : earliest fun key => find (quoted key) rest with
      | none => rfl
      | some found =>
        obtain ⟨pos, key⟩ := found
        obtain ⟨-, hstand, -⟩ := earliest_eq_some (findsFirst_find_quoted rest) hearliest
        have hquoted : (quoted key).length = key.length + 2 := by simp [quoted]
        have hafter : offset rest pos + (utf8 key).length + 2 =
            offset rest (pos + key.length + 2) := by
          have hbytes : (utf8 (quoted key)).length = (utf8 key).length + 2 := by
            rw [quoted, List.cons_append, length_utf8_cons, utf8_append, List.length_append]
            exact Nat.add_comm 1 _
          rw [Nat.add_assoc pos, ← hquoted, offset_add_word hstand, hbytes, Nat.add_assoc]
        have hle := le_length_of_prefix (by simp [quoted]) hstand
        change (expectSome (sliceTo (utf8 rest) (offset rest pos + (utf8 key).length + 2)) >>= _) = _
        dsimp only [Option.map_some]
        rw [hafter, sliceTo_offset]
        change (expectSome (sliceFrom (utf8 rest) (offset rest (pos + key.length + 2))) >>= _) = _
        rw [sliceFrom_offset]
        change (jsonStringValueRange (utf8 (rest.drop (pos + key.length + 2))) >>= _) = _
        rw [jsonStringValueRange_utf8]
        cases OidcExchange.jsonStringValueRange (rest.drop (pos + key.length + 2)) with
        | none =>
          change maskJsonValuesFrom turns _ _ = _
          rw [ih turns' _ _ (by rw [List.length_drop]; omega) (by rw [List.length_drop]; omega)]
          simp only [utf8_append, List.append_assoc]
        | some range =>
          obtain ⟨valueStart, valueEnd⟩ := range
          change (expectSome (slice (utf8 rest) (offset rest (pos + key.length + 2))
            (offset rest (pos + key.length + 2) +
              offset (rest.drop (pos + key.length + 2)) valueStart)) >>= fun gap =>
            expectSome (sliceFrom (utf8 rest) (offset rest (pos + key.length + 2) +
              offset (rest.drop (pos + key.length + 2)) valueEnd)) >>= fun next =>
            maskJsonValuesFrom turns next _) = _
          have hdrop : (rest.drop (pos + key.length + 2)).drop valueEnd =
              rest.drop (pos + key.length + 2 + valueEnd) := List.drop_drop
          rw [← offset_add, ← offset_add, slice_offset, sliceFrom_offset, ← hdrop]
          change maskJsonValuesFrom turns _ _ = _
          rw [ih turns' _ _ (by rw [List.length_drop, List.length_drop]; omega)
            (by rw [List.length_drop, List.length_drop]; omega)]
          simp only [utf8_append, List.append_assoc]

theorem maskJsonValues_utf8 (text : List Char) :
    maskJsonValues (utf8 text) = .ok (utf8 (OidcExchange.maskJsonValues text)) := by
  have hlen := length_le_utf8 text
  rw [maskJsonValues, maskJsonValuesFrom_utf8 _ (text.length + 1) text [] (by omega) (by omega),
    List.nil_append]
  rfl

/-! ## Bare assertions -/

/-- What is written of a run, or of none. -/
def flushed (lib : UpstreamLibrary) (run : Option (List Char)) : List Char :=
  (run.map (pushJwsChecked lib)).getD []

theorem flushRun_end (lib : UpstreamLibrary) (before : List Char) (run : Option (List Char)) :
    flushRun lib (utf8 (before ++ run.getD [])) (run.map fun _ => (utf8 before).length) none =
      .ok (utf8 (flushed lib run)) := by
  cases run with
  | none => rfl
  | some run =>
    rw [Option.map_some, Option.getD_some, flushRun, sliceFrom_utf8]
    change Except.ok (utf8 (pushJwsChecked lib (Lossy.decode (utf8 run)))) = _
    rw [Lossy.decode_utf8]
    rfl

theorem flushRun_at (lib : UpstreamLibrary) (before after : List Char)
    (run : Option (List Char)) :
    flushRun lib (utf8 (before ++ run.getD [] ++ after)) (run.map fun _ => (utf8 before).length)
      (some (utf8 (before ++ run.getD [])).length) = .ok (utf8 (flushed lib run)) := by
  cases run with
  | none => rfl
  | some run =>
    rw [Option.map_some, Option.getD_some, flushRun, slice_utf8]
    change Except.ok (utf8 (pushJwsChecked lib (Lossy.decode (utf8 run)))) = _
    rw [Lossy.decode_utf8]
    rfl

/-- The pass goes on after what it has left behind, with the run that it is in. -/
theorem maskRuns_utf8 (lib : UpstreamLibrary) {text : List Char} (before : List Char)
    (run : Option (List Char)) (rest : List Char) (out : List UInt8)
    (htext : text = before ++ run.getD [] ++ rest) :
    maskRuns lib (utf8 text) (run.map fun _ => (utf8 before).length)
      (charIndicesFrom (utf8 (before ++ run.getD [])).length rest) out =
        .ok (out ++ utf8 (OidcExchange.maskRuns lib run rest)) := by
  induction rest generalizing before run out with
  | nil =>
    rw [charIndicesFrom, maskRuns, htext, List.append_nil, flushRun_end]
    cases run with
    | none => rfl
    | some run => rfl
  | cons ch rest ih =>
    have hnext : (utf8 (before ++ run.getD [])).length + (utf8 [ch]).length =
        (utf8 (before ++ run.getD [] ++ [ch])).length := by
      rw [utf8_append (before ++ run.getD []), List.length_append]
    have hstep : OidcExchange.maskRuns lib run (ch :: rest) =
        if inJwsCharset ch then OidcExchange.maskRuns lib (some (run.getD [] ++ [ch])) rest
        else flushed lib run ++ ch :: OidcExchange.maskRuns lib none rest := by
      cases run <;> rw [OidcExchange.maskRuns] <;> rfl
    rw [charIndicesFrom, maskRuns, hnext, hstep]
    by_cases hch : inJwsCharset ch = true
    · rw [if_pos hch, if_pos hch]
      have hmore := ih before (some (run.getD [] ++ [ch])) out (by
        rw [htext, Option.getD_some, ← List.append_assoc, List.append_assoc _ [ch],
          List.singleton_append])
      rw [Option.getD_some, ← List.append_assoc] at hmore
      rw [← hmore]
      cases run with
      | none =>
        rw [Option.getD_none, List.append_nil]
        rfl
      | some run => rfl
    · rw [if_neg hch, if_neg hch]
      have hmore := ih (before ++ run.getD [] ++ [ch]) none
        (out ++ utf8 (flushed lib run) ++ utf8 [ch]) (by
          rw [htext, Option.getD_none, List.append_nil, List.append_assoc _ [ch],
            List.singleton_append])
      rw [Option.getD_none, List.append_nil, Option.map_none] at hmore
      have hflush := flushRun_at lib before (ch :: rest) run
      rw [← htext] at hflush
      rw [hflush]
      change maskRuns lib (utf8 text) none _ (out ++ utf8 (flushed lib run) ++ utf8 [ch]) = _
      rw [hmore]
      simp only [utf8_append, utf8_cons, utf8_nil, List.append_nil, List.append_assoc]

theorem maskRuns_text {lib : UpstreamLibrary} (text : List Char) :
    maskRuns lib (utf8 text) none (charIndices (utf8 text)) [] =
      .ok (utf8 (OidcExchange.maskRuns lib none text)) := by
  have h := maskRuns_utf8 lib [] none text [] rfl
  rw [charIndices, Lossy.decode_utf8]
  exact h

theorem maskCompactJws_utf8 {lib : UpstreamLibrary} {text out : List Char}
    (h : OidcExchange.maskCompactJws lib text = .ok out) :
    maskCompactJws lib (utf8 text) = .ok (utf8 out) := by
  rw [OidcExchange.maskCompactJws] at h
  obtain ⟨_, hassert, hout⟩ := ok_of_bind h
  have hruns : OidcExchange.maskRuns lib none text = out := Except.ok.inj hout
  rw [maskCompactJws, maskRuns_text]
  change (assertThat (decide ((utf8 (OidcExchange.maskRuns lib none text)).length ≤
    (utf8 text).length)) >>= _) = _
  rw [hassert, ← hruns]
  rfl

/-! ## Excerpts -/

/-- Redaction works on the bytes of a text as it does on its characters. -/
theorem redact_utf8 {lib : UpstreamLibrary} {text out : List Char}
    (h : OidcExchange.redact lib text = .ok out) : redact lib (utf8 text) = .ok (utf8 out) := by
  rw [redact, percentDecode_utf8]
  change (maskFormPairs (utf8 (OidcExchange.percentDecode text)) >>= _) = _
  rw [maskFormPairs_utf8]
  change (maskJsonValues (utf8 (OidcExchange.maskFormPairs _)) >>= _) = _
  rw [maskJsonValues_utf8]
  exact maskCompactJws_utf8 h

theorem getElem?_charIndicesFrom (position : ℕ) (cs : List Char) (n : ℕ) :
    (charIndicesFrom position cs)[n]? = cs[n]?.map fun c => (position + offset cs n, c) := by
  induction cs generalizing position n with
  | nil => rfl
  | cons c cs ih =>
    rw [charIndicesFrom]
    cases n with
    | zero => rfl
    | succ n =>
      rw [List.getElem?_cons_succ, List.getElem?_cons_succ, ih, offset_succ, utf8_cons, utf8_nil,
        List.append_nil, Nat.add_assoc]

theorem clampChars_utf8 (value : List Char) (maxChars : ℕ) :
    clampChars (utf8 value) maxChars = .ok (utf8 (OidcExchange.clampChars value maxChars)) := by
  rw [clampChars, OidcExchange.clampChars, charIndices, Lossy.decode_utf8,
    getElem?_charIndicesFrom]
  cases hat : value[maxChars]? with
  | none =>
    rw [List.take_of_length_le (List.getElem?_eq_none_iff.mp hat)]
    rfl
  | some c =>
    dsimp only [Option.map_some]
    rw [Nat.zero_add, sliceTo_offset]
    rfl

theorem excerptOf_utf8 {lib : UpstreamLibrary} {text out : List Char}
    (h : OidcExchange.redact lib text = .ok out) :
    excerptOf lib (utf8 text) = .ok (utf8 (out.take maxUpstreamExcerpt)) := by
  rw [excerptOf, redact_utf8 h]
  exact clampChars_utf8 out maxUpstreamExcerpt

end Sliced

end OidcExchange
