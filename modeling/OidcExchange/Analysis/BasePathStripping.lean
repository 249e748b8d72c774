import OidcExchange.Analysis.DomainAllowlist
import OidcExchange.Program.BasePath
import OidcExchange.Texts.Lossy

/-!
# Requests below a mount prefix

A prefix that the configuration accepts begins with a slash, goes on, and ends in another
character. It is taken off exactly the paths that equal it or continue it with a slash, nothing
else of a request changes, and the parts that are put together again are always accepted.
-/

set_option autoImplicit false

namespace OidcExchange

open Texts

/-- The path is the mount prefix, and ends there or goes on with a slash. -/
def MountedAt (mount path rest : List UInt8) : Prop :=
  path = mount ++ rest ∧ (rest = [] ∨ rest.head? = some slash)

theorem stripPrefixAtSegmentBoundary_eq_some_iff {path mount rest : List UInt8} :
    stripPrefixAtSegmentBoundary path mount = some rest ↔ MountedAt mount path rest := by
  rw [stripPrefixAtSegmentBoundary, Option.filter_eq_some_iff, List.dropPrefix?_eq_some_iff]
  simp only [beq_iff_eq, exists_eq_right, Bool.or_eq_true, List.isEmpty_iff, MountedAt]

/-- The root is an absolute path, as is everything that goes on with a slash. -/
theorem head_rootIfEmpty {rest : List UInt8} (h : rest = [] ∨ rest.head? = some slash) :
    (rootIfEmpty rest).head? = some slash := by
  obtain rfl | hhead := h
  · rfl
  · cases rest with
    | nil => cases hhead
    | cons b rest => exact hhead

theorem isEmpty_rootIfEmpty (rest : List UInt8) : (rootIfEmpty rest).isEmpty = false := by
  cases rest with
  | nil => rfl
  | cons => rfl

/-! ## Accepted prefixes -/

/-- What the configuration accepts as a prefix. -/
structure Canonical (mount : String) : Prop where
  starts : ∃ rest, bytes mount = slash :: rest
  long : 1 < (bytes mount).length

theorem length_bytes (text : String) : (bytes text).length = text.utf8ByteSize := by
  rw [bytes, Array.length_toList]
  rfl

theorem canonical_of_isCanonicalBasePath {mount : String}
    (h : isCanonicalBasePath mount = true) : Canonical mount := by
  rw [isCanonicalBasePath, Bool.and_eq_true, Bool.and_eq_true, decide_eq_true_eq,
    beq_iff_eq] at h
  obtain ⟨⟨hlong, hhead⟩, -⟩ := h
  obtain ⟨cs, hcs⟩ := List.head?_eq_some_iff.mp hhead
  refine ⟨⟨utf8 cs, ?_⟩, length_bytes mount ▸ hlong⟩
  rw [← utf8_toList, hcs, utf8_cons]
  rfl

theorem canonical_of_resolve (tables : UnicodeTables) {raw : Option String} {mount : String}
    (h : resolveBasePath tables raw = .ok (some mount)) : Canonical mount := by
  rw [resolveBasePath] at h
  cases hnormal : normaliseBasePath raw with
  | none => simp only [hnormal] at h; cases h
  | some trimmed =>
    simp only [hnormal] at h
    split at h
    · rename_i hcanonical
      cases h
      exact canonical_of_isCanonicalBasePath hcanonical
    · cases h

/-- An accepted prefix is not one that means the root. -/
theorem Canonical.kept {mount : String} (h : Canonical mount) :
    (some mount).filter (fun m => !m.isEmpty && m != "/") = some mount := by
  have hne : ∀ short : String, (bytes short).length ≤ 1 → mount ≠ short := by
    rintro short hshort rfl
    exact absurd h.long (Nat.not_lt.mpr hshort)
  have hempty : mount.isEmpty = false := by
    rw [Bool.eq_false_iff, ne_eq, String.isEmpty_iff]
    exact hne "" (by decide)
  rw [Option.filter_some, if_pos]
  rw [hempty, Bool.not_false, Bool.true_and, bne_iff_ne]
  exact hne "/" (by decide)

/-! ## Assembled addresses -/

section

variable {lib : UriLibrary}

theorem pathAndQuery_append (mount rest : List UInt8) (query : Option (List UInt8)) :
    pathAndQuery (mount ++ rest) query = mount ++ pathAndQuery rest query := by
  cases query with
  | none => rfl
  | some q => exact List.append_assoc ..

/-- What is left of a path that the package allows is allowed. -/
theorem allows_rootIfEmpty {mount : String} (hmount : Canonical mount) {rest : List UInt8}
    {query : Option (List UInt8)} (h : lib.Allows (bytes mount ++ rest) query) :
    lib.Allows (rootIfEmpty rest) query := by
  obtain ⟨more, hslash⟩ := hmount.starts
  have hmem : slash ∈ bytes mount := hslash ▸ List.mem_cons_self
  have hlong := hmount.long
  have hfits := h.fits
  have htext : isUtf8 (pathAndQuery rest query) = true := by
    rw [← isUtf8_append mount.toList, utf8_toList, ← pathAndQuery_append]
    exact h.is_text
  rw [pathAndQuery_append, List.length_append] at hfits
  cases rest with
  | nil =>
    have hroot : pathAndQuery [slash] query = utf8 ['/'] ++ pathAndQuery [] query :=
      pathAndQuery_append [slash] [] query
    refine ⟨fun b hb => ?_, h.query_bytes, ?_, ?_⟩
    · rw [List.mem_singleton.mp hb]
      exact h.path_bytes slash (List.mem_append_left _ hmem)
    · rw [rootIfEmpty, List.isEmpty_nil, if_pos rfl, hroot, isUtf8_append]
      exact htext
    · rw [rootIfEmpty, List.isEmpty_nil, if_pos rfl, hroot, List.length_append,
        show (utf8 ['/']).length = 1 from rfl]
      omega
  | cons b rest =>
    refine ⟨fun x hx => h.path_bytes x (List.mem_append_right _ hx), h.query_bytes, htext, ?_⟩
    show (pathAndQuery (b :: rest) query).length ≤ lib.maxLen
    omega

/-- Without the prefix an address is made of parts that the package accepts. -/
theorem rebuildUriWithPathAndQuery_eq (hlib : lib.Documented) {uri : Uri} (huri : lib.IsUri uri)
    {mount : String} (hmount : Canonical mount) {rest : List UInt8}
    (h : MountedAt (bytes mount) uri.path rest) :
    rebuildUriWithPathAndQuery lib uri (pathAndQuery (rootIfEmpty rest) uri.query) =
      some { uri with path := rootIfEmpty rest } := by
  obtain ⟨hpath, hboundary⟩ := h
  obtain ⟨more, hslash⟩ := hmount.starts
  have hhead : (rootIfEmpty rest).head? = some slash := head_rootIfEmpty hboundary
  have habsolute : uri.path.head? = some slash := by
    rw [hpath, hslash]
    rfl
  have hparse := hlib.parse (rootIfEmpty rest) uri.query hhead
    (allows_rootIfEmpty hmount (hpath ▸ hlib.allows uri huri))
  obtain ⟨hscheme, hauthority⟩ := hlib.intoParts uri huri
  have hparts : lib.fromParts ⟨(lib.intoParts uri).scheme, (lib.intoParts uri).authority,
      some ⟨rootIfEmpty rest, uri.query⟩⟩ = some { uri with path := rootIfEmpty rest } := by
    rw [hscheme, hauthority]
    exact hlib.fromParts _ _ _ _ hhead (hlib.absolute uri huri habsolute)
  simp only [rebuildUriWithPathAndQuery, hparse, Option.bind_eq_bind, Option.bind_some, hparts,
    isEmpty_rootIfEmpty, Bool.false_eq_true, if_false]

/-- What is left of a path is shorter than the path. -/
theorem rootIfEmpty_ne {mount : String} (hmount : Canonical mount) {path rest : List UInt8}
    (h : MountedAt (bytes mount) path rest) : rootIfEmpty rest ≠ path := by
  intro heq
  have hlength := congrArg List.length (heq.trans h.1)
  have hlong := hmount.long
  rw [List.length_append] at hlength
  cases rest with
  | nil =>
    rw [show (rootIfEmpty []).length = 1 from rfl, List.length_nil] at hlength
    omega
  | cons b rest =>
    rw [show rootIfEmpty (b :: rest) = b :: rest from rfl] at hlength
    omega

/-! ## Stripping -/

variable {Method Name Value : Type} {request : HttpRequest Method Name Value}

/-- A path below the prefix is routed without it. -/
theorem stripBasePath_mounted (hlib : lib.Documented) (huri : lib.IsUri request.uri)
    {mount : String} (hmount : Canonical mount) {rest : List UInt8}
    (h : MountedAt (bytes mount) request.uri.path rest) :
    stripBasePath lib request (some mount) =
      .ok { request with uri := { request.uri with path := rootIfEmpty rest } } := by
  rw [stripBasePath, hmount.kept]
  simp only [stripPrefixAtSegmentBoundary_eq_some_iff.mpr h,
    rebuildUriWithPathAndQuery_eq hlib huri hmount h, routeTo, if_neg (rootIfEmpty_ne hmount h),
    isEmpty_rootIfEmpty]
  rfl

/-- Any other request is routed as it came. -/
theorem stripBasePath_elsewhere {mount : String} (hmount : Canonical mount)
    (h : ∀ rest, ¬MountedAt (bytes mount) request.uri.path rest) :
    stripBasePath lib request (some mount) = .ok request := by
  have hnone : stripPrefixAtSegmentBoundary request.uri.path (bytes mount) = none := by
    rw [Option.eq_none_iff_forall_ne_some]
    exact fun rest hrest => h rest (stripPrefixAtSegmentBoundary_eq_some_iff.mp hrest)
  rw [stripBasePath, hmount.kept]
  simp only [hnone]

/-- What is asked of a request that is routed: it is the one that came, with the path that is
left of its own where that is below the prefix, and that is an absolute path. -/
structure RoutedFrom (request : HttpRequest Method Name Value) (basePath : Option String)
    (routed : HttpRequest Method Name Value) : Prop where
  mounted : ∀ mount rest, basePath = some mount → MountedAt (bytes mount) request.uri.path rest →
    routed = { request with uri := { request.uri with path := rootIfEmpty rest } } ∧
      routed.uri.path.head? = some slash
  elsewhere : (∀ mount rest, basePath = some mount →
    ¬MountedAt (bytes mount) request.uri.path rest) → routed = request
  undone : ∀ mount path, basePath = some mount → path.head? = some slash →
    request.uri.path = bytes mount ++ path →
    routed = { request with uri := { request.uri with path := path } }

/-- **Stripping is exact**: under every prefix that the configuration accepts every request is
routed, as `RoutedFrom` says. -/
theorem base_path_stripping_exact (hlib : lib.Documented) (tables : UnicodeTables)
    {raw basePath : Option String} (hbase : resolveBasePath tables raw = .ok basePath)
    (huri : lib.IsUri request.uri) :
    ∃ routed, stripBasePath lib request basePath = .ok routed ∧
      RoutedFrom request basePath routed := by
  cases basePath with
  | none => exact ⟨request, rfl, nofun, fun _ => rfl, nofun⟩
  | some mount =>
    have hmount := canonical_of_resolve tables hbase
    by_cases hmounted : ∃ rest, MountedAt (bytes mount) request.uri.path rest
    · obtain ⟨rest, hrest⟩ := hmounted
      have hsame : ∀ rest', request.uri.path = bytes mount ++ rest' → rest' = rest := by
        intro rest' h
        exact List.append_cancel_left (h.symm.trans hrest.1)
      refine ⟨_, stripBasePath_mounted hlib huri hmount hrest, ?_, ?_, ?_⟩
      · rintro _ rest' ⟨⟩ h
        cases hsame rest' h.1
        exact ⟨rfl, head_rootIfEmpty hrest.2⟩
      · exact fun h => absurd hrest (h mount rest rfl)
      · rintro _ path ⟨⟩ hpath h
        rw [← hsame path h]
        cases path with
        | nil => cases hpath
        | cons => rfl
    · have hnone : ∀ rest, ¬MountedAt (bytes mount) request.uri.path rest :=
        fun rest h => hmounted ⟨rest, h⟩
      refine ⟨request, stripBasePath_elsewhere hmount hnone, ?_, fun _ => rfl, ?_⟩
      · rintro _ rest ⟨⟩ h
        exact absurd h (hnone rest)
      · rintro _ path ⟨⟩ hpath h
        exact absurd ⟨h, Or.inr hpath⟩ (hnone path)

end

/-- A visible character of the seven-bit range besides the ones given. -/
def visibleBut (others : List UInt8) (b : UInt8) : Bool :=
  0x21 ≤ b && b < 0x7F && !others.contains b

/-- A package that accepts visible characters. -/
def plainUriLibrary : UriLibrary where
  IsUri uri :=
    (∀ b ∈ uri.path, visibleBut [questionMark, numberSign] b = true) ∧
      (∀ q, uri.query = some q → ∀ b ∈ q, visibleBut [numberSign] b = true) ∧
      isUtf8 (pathAndQuery uri.path uri.query) = true ∧
      (pathAndQuery uri.path uri.query).length ≤ 65534 ∧
      uri.scheme.isSome = uri.authority.isSome
  pathByte := visibleBut [questionMark, numberSign]
  queryByte := visibleBut [numberSign]
  maxLen := 65534
  intoParts uri := ⟨uri.scheme, uri.authority, some ⟨uri.path, uri.query⟩⟩
  parsePathAndQuery text := some {
    path := text.takeWhile (· != questionMark)
    query := match text.dropWhile (· != questionMark) with
      | [] => none
      | _ :: query => some query }
  fromParts parts := parts.pathAndQuery.map fun target =>
    ⟨parts.scheme, parts.authority, target.path, target.query⟩

theorem plainUriLibrary_documented : plainUriLibrary.Documented where
  allows _ h := ⟨h.1, h.2.1, h.2.2.1, h.2.2.2.1⟩
  absolute _ h _ := h.2.2.2.2
  intoParts _ _ := ⟨rfl, rfl⟩
  parse path query _ h := by
    have hbefore : ∀ b ∈ path, (b != questionMark) = true := by
      intro b hb
      rw [bne_iff_ne]
      rintro rfl
      exact absurd (h.path_bytes _ hb) (by decide)
    cases query with
    | none =>
      simp only [plainUriLibrary, pathAndQuery, List.takeWhile_eq_self_iff.mpr hbefore,
        List.dropWhile_eq_nil_iff.mpr hbefore]
    | some query =>
      simp only [plainUriLibrary, pathAndQuery, List.takeWhile_append_of_pos hbefore,
        List.dropWhile_append_of_pos hbefore]
      simp
  fromParts _ _ _ _ _ _ := rfl

/-- A request for a path with a query. -/
def healthRequest : HttpRequest String String String where
  method := "GET"
  uri := ⟨none, none, bytes "/prod/health", some (bytes "x=1")⟩
  headers := ∅
  body := []
  suppliedLocation := none

/-- A request below a prefix that was written with a slash at its end. -/
theorem base_path_stripping_exact_health :
    ∃ routed, stripBasePath plainUriLibrary healthRequest (some "/prod") = .ok routed ∧
      RoutedFrom healthRequest (some "/prod") routed :=
  have hbase : resolveBasePath plainTables (some "/prod/") = .ok (some "/prod") := by
    decide +kernel
  base_path_stripping_exact plainUriLibrary_documented plainTables hbase
    ⟨by decide +kernel, fun _ h => Option.some.inj h ▸ by decide +kernel, by decide +kernel,
      by decide +kernel, rfl⟩

end OidcExchange
