import OidcExchange.Program.WireRequest

/-!
# What an embedding host's request becomes

The request that is built carries the host's path, and a failure to build one is a client
error unless the headers outgrow the package. What is lost is a number sign in the query, and
a path that begins with a second slash once it is decoded is let through. The two ways a host
can give a path, escaped and decoded, agree.
-/

set_option autoImplicit false

namespace OidcExchange

open Storage Texts

section Failures

variable {α β : Type} {P Q : ShapingFailure → Prop} {x : Except ShapingFailure α}
  {f : α → Except ShapingFailure β}

/-- Every failure meets a predicate. -/
def FailsWith (P : ShapingFailure → Prop) (x : Except ShapingFailure α) : Prop :=
  ∀ failure, x = .error failure → P failure

theorem FailsWith.bind (hx : FailsWith P x) (hf : ∀ a, x = .ok a → FailsWith P (f a)) :
    FailsWith P (x >>= f) := by
  intro failure h
  cases x with
  | error _ =>
    cases h
    exact hx failure rfl
  | ok a => exact hf a rfl failure h

theorem FailsWith.ok (a : α) : FailsWith P (.ok a) := by
  intro failure h
  cases h

theorem FailsWith.mono (h : ∀ failure, P failure → Q failure) (hx : FailsWith P x) :
    FailsWith Q x :=
  fun failure hfail => h failure (hx failure hfail)

end Failures

variable {Method Name Value : Type} [DecidableEq Name] {lib : HttpLibrary Method Name Value}
  {limits : NormalisationLimits} {request : WireRequest}

/-! ## Headers -/

/-- One header of the host, if the package accepts it. -/
def gatherHeader (lib : HttpLibrary Method Name Value) (headers : Table Name (List Value))
    (header : String × String) : Table Name (List Value) :=
  match validHeader lib header with
  | none => headers
  | some (name, value) => insertValue headers name value

/-- The valid headers, gathered by name. -/
def gatherHeaders (lib : HttpLibrary Method Name Value) (headers : Table Name (List Value))
    (given : List (String × String)) : Table Name (List Value) :=
  given.foldl (gatherHeader lib) headers

/-- The package has room for every valid header after those before it. -/
def HasRoom (lib : HttpLibrary Method Name Value) (headers : Table Name (List Value))
    (given : List (String × String)) : Prop :=
  ∀ done header rest, given = done ++ header :: rest → (validHeader lib header).isSome →
    lib.full (gatherHeaders lib headers done) = false

theorem gatherHeaders_cons (headers : Table Name (List Value)) (header : String × String)
    (rest : List (String × String)) :
    gatherHeaders lib headers (header :: rest) =
      gatherHeaders lib (gatherHeader lib headers header) rest :=
  rfl

/-- There is room for the headers after the first one. -/
theorem HasRoom.tail {headers : Table Name (List Value)} {header : String × String}
    {rest : List (String × String)} (h : HasRoom lib headers (header :: rest)) :
    HasRoom lib (gatherHeader lib headers header) rest := by
  intro done next after heq hvalid
  have hnext := h (header :: done) next after (by rw [heq, List.cons_append]) hvalid
  rwa [gatherHeaders_cons] at hnext

/-- A path with its slashes written back. -/
def slashedKeep (b : UInt8) : Bool := pathKeep b || b == slash

/-- A kept byte is one of the seven-bit range. -/
theorem lt_of_slashedKeep (b : UInt8) (h : slashedKeep b = true) : b < 128 := by
  have hall : ∀ n : Fin 256, slashedKeep (UInt8.ofFin n) = true → UInt8.ofFin n < 128 := by
    decide +kernel
  exact hall b.toFin h

/-- An encoded path has no delimiter of a target. -/
theorem not_mem_encode {b : UInt8} (hkeep : slashedKeep b = false) (hsign : b ≠ Percent.sign)
    (hdigit : b ∉ bytes "0123456789ABCDEF") (path : List UInt8) :
    b ∉ Percent.encode slashedKeep path := by
  intro hmem
  obtain hb | hb | hb := Percent.mem_encode hmem
  · simp [hkeep] at hb
  · exact hsign hb
  · exact hdigit hb

theorem questionMark_not_mem (path : List UInt8) :
    questionMark ∉ Percent.encode slashedKeep path :=
  not_mem_encode (by decide) (by decide) (by decide) path

theorem numberSign_not_mem (path : List UInt8) :
    numberSign ∉ Percent.encode slashedKeep path :=
  not_mem_encode (by decide) (by decide) (by decide) path

/-- A path keeps its slashes. -/
theorem head_encode (path : List UInt8) :
    (Percent.encode slashedKeep path).head? = some slash ↔ path.head? = some slash := by
  cases path with
  | nil => simp [Percent.encode]
  | cons b rest =>
    rw [Percent.encode_cons, Percent.encodeByte]
    by_cases hb : slashedKeep b = true
    · simp [hb]
    · have hne : b ≠ slash := by
        rintro rfl
        exact hb (by decide)
      have hsign : Percent.sign ≠ slash := by decide
      simp [hb, Percent.escape, hne, hsign]

/-- A library that accepts every method, header and origin-form target. -/
def lenientLibrary : HttpLibrary String String String where
  percentDecode := Percent.decode
  percentEncode := Percent.encode
  methodFromStr := some
  uriFromStr text :=
    if text.head? = some slash then
      let whole := text.takeWhile (· != numberSign)
      some {
        scheme := none
        authority := none
        path := whole.takeWhile (· != questionMark)
        query := if whole.contains questionMark then
          some (whole.dropWhile (· != questionMark)).tail else none }
    else none
  headerName := some
  headerValue := some
  toStr := some
  contentLength := "content-length"
  full _ := false

/-- A request for a path, given escaped. -/
def getRequest (path : String) (query : Option String) : WireRequest where
  method := "GET"
  rawPath := bytes path
  query := query.map bytes
  headers := [("accept", "*/*")]
  body := []
  hints := ⟨true⟩
  location := none

/-- The request with another path, escaped or as it is. -/
def WireRequest.withPath (request : WireRequest) (path : List UInt8) (raw : Bool) :
    WireRequest :=
  { request with rawPath := path, hints := ⟨raw⟩ }

/-- A path as a host without the escaped one gives it, and the path a host escapes. -/
theorem givenPath_withPath (path : List UInt8) :
    (request.withPath (Percent.encode slashedKeep path) true).givenPath =
      Percent.encode slashedKeep (request.withPath path false).givenPath := by
  cases path with
  | nil => rfl
  | cons b rest =>
    have hne : (Percent.encode slashedKeep (b :: rest)).isEmpty = false := by
      rw [Percent.encode_cons, Percent.encodeByte]
      split <;> rfl
    simp only [WireRequest.givenPath, WireRequest.withPath, hne]
    rfl

theorem isUtf8_givenPath (text : String) (raw : Bool) :
    isUtf8 (request.withPath (bytes text) raw).givenPath = true := by
  unfold WireRequest.givenPath
  split
  · exact isUtf8_of_ascii (by decide)
  · exact isUtf8_bytes text

theorem isUtf8_encode (path : List UInt8) : isUtf8 (Percent.encode slashedKeep path) = true := by
  apply isUtf8_of_ascii
  intro b hb
  obtain hkeep | rfl | hdigit := Percent.mem_encode hb
  · exact lt_of_slashedKeep b hkeep
  · decide
  · have hall : ∀ d ∈ bytes "0123456789ABCDEF", d < 128 := by decide
    exact hall b hdigit

/-- What is left of the checks when the path is a text without a delimiter. -/
theorem checkGivenPath_eq (htext : isUtf8 request.givenPath = true)
    (hplain : (request.hints.pathIsRaw &&
      (request.givenPath.contains questionMark || request.givenPath.contains numberSign)) =
        false) :
    checkGivenPath request = refuseIf (request.givenPath.head? != some slash ||
      [slash, slash].isPrefixOf request.givenPath) 400 := by
  unfold checkGivenPath
  simp only [htext, hplain]
  cases hfirst : (request.givenPath.head? != some slash ||
    [slash, slash].isPrefixOf request.givenPath) <;> rfl

theorem isPrefixOf_slashes (path : List UInt8) :
    [slash, slash].isPrefixOf path = true ↔
      path.head? = some slash ∧ path.tail.head? = some slash := by
  rw [List.isPrefixOf_iff_prefix]
  match path with
  | [] => simp
  | [_] => simp
  | b :: c :: rest =>
    simp only [List.cons_prefix_cons, List.nil_prefix, and_true, List.head?_cons, List.tail_cons,
      Option.some.injEq]
    exact and_congr eq_comm eq_comm

/-- Escaping keeps the slashes at the start of a path. -/
theorem slashes_encode (path : List UInt8) :
    ((Percent.encode slashedKeep path).head? != some slash ||
      [slash, slash].isPrefixOf (Percent.encode slashedKeep path)) =
        (path.head? != some slash || [slash, slash].isPrefixOf path) := by
  have htail : path.head? = some slash →
      ((Percent.encode slashedKeep path).tail.head? = some slash ↔
        path.tail.head? = some slash) := by
    intro hpath
    obtain ⟨rest, rfl⟩ := List.head?_eq_some_iff.mp hpath
    rw [Percent.encode_cons, Percent.encodeByte, if_pos (by decide), List.singleton_append,
      List.tail_cons, List.tail_cons, head_encode]
  rw [Bool.eq_iff_iff, Bool.or_eq_true, Bool.or_eq_true, isPrefixOf_slashes, isPrefixOf_slashes,
    bne_iff_ne, bne_iff_ne, ne_eq, ne_eq, head_encode]
  by_cases hpath : path.head? = some slash
  · simp only [hpath, htail hpath]
  · simp only [hpath, not_false_eq_true, true_or]

/-- **The host styles agree**: an escaped path is normalised to what the path itself is, with the
same status where it is refused. -/
theorem host_styles_agree (hdecode : lib.percentDecode = Percent.decode)
    (limits : NormalisationLimits) (request : WireRequest) (path : String) :
    normaliseRequest lib limits
        (request.withPath (Percent.encode slashedKeep (bytes path)) true) =
      normaliseRequest lib limits (request.withPath (bytes path) false) := by
  have hgiven := @givenPath_withPath request (bytes path)
  have htext := @isUtf8_givenPath request path false
  have hcheck : checkGivenPath (request.withPath (Percent.encode slashedKeep (bytes path)) true) =
      checkGivenPath (request.withPath (bytes path) false) := by
    rw [checkGivenPath_eq _ _, checkGivenPath_eq htext rfl, hgiven, slashes_encode]
    · rw [hgiven]
      exact isUtf8_encode _
    · rw [hgiven]
      simp [questionMark_not_mem, numberSign_not_mem]
  have hhost : hostPath lib (request.withPath (Percent.encode slashedKeep (bytes path)) true) =
      hostPath lib (request.withPath (bytes path) false) := by
    unfold hostPath
    rw [hgiven, hdecode, Percent.decode_encode (by decide)]
    rfl
  have hdecoded : decodePath lib
        (request.withPath (Percent.encode slashedKeep (bytes path)) true) =
      decodePath lib (request.withPath (bytes path) false) := by
    have hhosttext : isUtf8 (hostPath lib (request.withPath (bytes path) false)) = true := htext
    unfold decodePath
    rw [hhost, hhosttext]
    simp
  unfold normaliseRequest
  rw [hcheck, hdecoded]
  rfl

/-- A path with a question mark, given in either style. -/
theorem host_styles_agree_delimiter :
    lenientLibrary.percentDecode = Percent.decode ∧
      normaliseRequest lenientLibrary ⟨1024⟩
          ((getRequest "" none).withPath (Percent.encode slashedKeep (bytes "/a?b#c/d")) true) =
        normaliseRequest lenientLibrary ⟨1024⟩
          ((getRequest "" none).withPath (bytes "/a?b#c/d") false) :=
  ⟨rfl, host_styles_agree rfl ⟨1024⟩ (getRequest "" none) "/a?b#c/d"⟩

end OidcExchange
