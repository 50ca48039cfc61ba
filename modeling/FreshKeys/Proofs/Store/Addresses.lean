import FreshKeys.Proofs.Store.Paths
import FreshKeys.Proofs.Store.Replies

/-!
# Which paths a read asks for as they are

The path of a read is put behind the address of the server, and what comes of the two is read as one
address. A path is asked for as it is exactly when it is plain: no character of it falls away, ends
the path or stands for a slash, no segment of it is dots, and it holds no code of its own.
-/

namespace FreshKeys.Store

open Host (decodePercent Uncoded)
open Text (isSlash StartsWithout EndsWithout pieces utf8 weigh)

namespace Url

/-- An address of a server and no more: a scheme and the server's name, maybe with a port. -/
def IsOrigin (address : String) : Prop :=
  ∃ scheme authority, (scheme = "http" ∨ scheme = "https") ∧
    address.toList = scheme.toList ++ "://".toList ++ authority ∧
    (∃ c ∈ authority, isBreak c = false) ∧
    ∀ c ∈ authority, isSeparator c = false ∧ endsPath c = false

/-- An address is for a path under the first version of the interface, and has nothing more. -/
structure IsFor (url : Url) (path : String) : Prop where
  query : url.query = none
  segments : url.segments.map (fun s => decodePercent s.toList) =
    ("v1".toList :: pieces isSlash path.toList).map utf8

/-- A path that an address can hold as it is. -/
structure IsPlain (path : String) : Prop where
  chars : ∀ c ∈ path.toList, isBreak c = false ∧ endsPath c = false ∧ c ≠ '\\'
  ends : EndsWithout isEdge path.toList
  segments : ∀ s ∈ pieces isSlash path.toList, s ≠ ['.'] ∧ s ≠ ['.', '.'] ∧ Uncoded s

/-- What follows a server's name in an address is its path, up to a query or a fragment. -/
theorem afterScheme?_origin {secure : Bool} {authority rest : List Char} {url : Url}
    (hne : authority ≠ []) (hname : ∀ c ∈ authority, isSeparator c = false ∧ endsPath c = false)
    (h : afterScheme? secure ("//".toList ++ authority ++ '/' :: rest) = some url) :
    url.segments = segmentsOf (('/' :: rest).takeWhile fun c => !endsPath c) ∧
      ((∀ c ∈ rest, endsPath c = false) → url.query = none) := by
  have hafter : ("//".toList ++ authority ++ '/' :: rest).dropWhile isSeparator =
      authority ++ '/' :: rest := by
    obtain ⟨c, name, rfl⟩ := List.exists_cons_of_ne_nil hne
    have hc := (hname c List.mem_cons_self).1
    have hslash : isSeparator '/' = true := rfl
    exact (List.dropWhile_cons_of_pos hslash).trans ((List.dropWhile_cons_of_pos hslash).trans
      (List.dropWhile_cons_of_neg (by simp [hc])))
  have hkeep : ∀ c ∈ authority, (!isSeparator c && !endsPath c) = true := by
    intro c hc
    simp [hname c hc]
  have hspan : (authority ++ '/' :: rest).span (fun c => !isSeparator c && !endsPath c) =
      (authority, '/' :: rest) := by
    rw [List.span_eq_takeWhile_dropWhile, List.takeWhile_append_of_pos hkeep,
      List.dropWhile_append_of_pos hkeep]
    simp [isSeparator]
  simp only [afterScheme?, hafter, hspan, List.span_eq_takeWhile_dropWhile] at h
  have hdrop : (∀ c ∈ rest, endsPath c = false) →
      ('/' :: rest).dropWhile (fun c => !endsPath c) = [] := by
    intro hrest
    have hslash : endsPath '/' = false := rfl
    simpa [hslash] using hrest
  obtain ⟨host, -, h⟩ := Option.bind_eq_some_iff.mp h
  split at h
  · obtain rfl := Option.some.inj h
    exact ⟨rfl, fun hrest => by simp only [hdrop hrest]⟩
  · obtain ⟨port, -, h⟩ := Option.bind_eq_some_iff.mp h
    obtain rfl := Option.some.inj h
    exact ⟨rfl, fun hrest => by simp only [hdrop hrest]⟩
  · cases h

/-- Nothing falls away before the path. -/
theorem clean_append {start : List Char} (hstarts : StartsWithout isEdge start) (hne : start ≠ [])
    (hends : EndsWithout isEdge start) (path : List Char) :
    (Text.strip isEdge (start ++ path)).filter (fun c => !isBreak c) =
      start.filter (fun c => !isBreak c) ++ surviving path := by
  have hwhole : StartsWithout isEdge (start ++ path) := by
    obtain ⟨c, rest, rfl⟩ := List.exists_cons_of_ne_nil hne
    exact hstarts
  rw [Text.strip, Text.dropStart_eq_self_iff.mpr hwhole, Text.dropEnd_append hends,
    List.filter_append, surviving]

/-- The scheme is read first. -/
theorem afterScheme?_of_parse? {scheme : String} (hscheme : scheme = "http" ∨ scheme = "https")
    {text : String} {rest : List Char} {url : Url}
    (hclean : (Text.strip isEdge text.toList).filter (fun c => !isBreak c) =
      scheme.toList ++ ':' :: rest)
    (h : parse? text = some url) : ∃ secure, afterScheme? secure rest = some url := by
  have hspan : (scheme.toList ++ ':' :: rest).span (· != ':') = (scheme.toList, ':' :: rest) := by
    rw [List.span_eq_takeWhile_dropWhile]
    rcases hscheme with rfl | rfl <;> rfl
  simp only [parse?, hclean, hspan] at h
  rcases hscheme with rfl | rfl
  · exact ⟨false, h⟩
  · exact ⟨true, h⟩

/-- The address of an origin with a path behind it has the path that was put there. -/
theorem parse?_origin {address path : String} (horigin : IsOrigin address) {url : Url}
    (h : parse? (address ++ "/v1/" ++ path) = some url) :
    url.segments = segmentsOf ("/v1/".toList ++ written path.toList) ∧
      ((∀ c ∈ surviving path.toList, endsPath c = false) → url.query = none) := by
  obtain ⟨scheme, authority, hscheme, haddress, ⟨c, hc, hbreak⟩, hname⟩ := horigin
  have hne : authority.filter (fun c => !isBreak c) ≠ [] :=
    List.ne_nil_of_mem (List.mem_filter.mpr ⟨hc, by rw [hbreak]; rfl⟩)
  have hnames : ∀ c ∈ authority.filter (fun c => !isBreak c),
      isSeparator c = false ∧ endsPath c = false := fun c hc => hname c (List.mem_of_mem_filter hc)
  have hclean : (Text.strip isEdge (address ++ "/v1/" ++ path).toList).filter (fun c => !isBreak c) =
      scheme.toList ++ ':' :: ("//".toList ++ authority.filter (fun c => !isBreak c) ++
        '/' :: ("v1/".toList ++ surviving path.toList)) := by
    have hstarts : StartsWithout isEdge (scheme.toList ++ "://".toList ++ authority ++ "/v1/".toList) := by
      rcases hscheme with rfl | rfl <;> intro c hc <;> cases hc <;> rfl
    have hends : EndsWithout isEdge (scheme.toList ++ "://".toList ++ authority ++ "/v1/".toList) := by
      intro c hc
      rw [List.getLast?_append] at hc
      cases hc
      rfl
    rw [String.toList_append, String.toList_append, haddress, clean_append hstarts (by simp) hends]
    rcases hscheme with rfl | rfl <;> simp [isBreak]
  obtain ⟨secure, hafter⟩ := afterScheme?_of_parse? hscheme hclean h
  obtain ⟨hsegments, hquery⟩ := afterScheme?_origin hne hnames hafter
  refine ⟨hsegments.trans ?_, fun hrest => hquery ?_⟩
  · simp [written, endsPath]
  · simpa [endsPath] using hrest

/-- Cutting at backslashes too makes a difference exactly when there are any. -/
theorem pieces_isSeparator_iff {path : List Char} :
    pieces isSeparator path = pieces isSlash path ↔ ∀ c ∈ path, c ≠ '\\' := by
  constructor
  · rintro h c hc rfl
    obtain ⟨piece, hpiece, hmem⟩ := Text.mem_pieces_iff.mpr ⟨hc, (rfl : isSlash '\\' = false)⟩
    rw [← h] at hpiece
    cases (Text.mem_pieces_iff.mp ⟨piece, hpiece, hmem⟩).2
  · intro h
    refine Text.pieces_congr fun c hc => ?_
    simp [isSeparator, isSlash, h c hc]

/-- A path is plain when no step of reading it changes anything. -/
theorem isPlain_iff {path : String} : IsPlain path ↔
    written path.toList = path.toList ∧
      pieces isSeparator path.toList = pieces isSlash path.toList ∧
      ∀ s ∈ pieces isSlash path.toList, isDots s = false ∧ Uncoded s := by
  rw [written_eq_self_iff, pieces_isSeparator_iff]
  constructor
  · intro h
    refine ⟨⟨⟨h.ends, fun c hc => (h.chars c hc).1⟩, fun c hc => (h.chars c hc).2.1⟩,
      fun c hc => (h.chars c hc).2.2, fun s hs => ?_⟩
    obtain ⟨hone, htwo, huncoded⟩ := h.segments s hs
    refine ⟨Bool.eq_false_iff.mpr fun hdots => ?_, huncoded⟩
    exact ((isDots_iff_of_uncoded huncoded).mp hdots).elim hone htwo
  · rintro ⟨⟨⟨hends, hbreaks⟩, hpath⟩, hslashes, hsegments⟩
    refine ⟨fun c hc => ⟨hbreaks c hc, hpath c hc, hslashes c hc⟩, hends, fun s hs => ?_⟩
    obtain ⟨hdots, huncoded⟩ := hsegments s hs
    have hnot := fun h => Bool.eq_false_iff.mp hdots ((isDots_iff_of_uncoded huncoded).mpr h)
    exact ⟨fun h => hnot (.inl h), fun h => hnot (.inr h), huncoded⟩

/-- The version of the interface is the first segment before segments are put in order. -/
theorem segmentsOf_version (path : List Char) : segmentsOf ("/v1/".toList ++ path) =
    (resolve [] ("v1".toList :: pieces isSeparator path)).map fun s =>
      String.ofList (encode isCodedInPath s) := by
  have hversion : ∀ c ∈ "v1".toList, isSeparator c = false := by simp [isSeparator]
  have hpieces : pieces isSeparator ("/v1/".toList ++ path).tail =
      "v1".toList :: pieces isSeparator path :=
    Text.pieces_append_separator (c := '/') rfl hversion path
  rw [segmentsOf, hpieces]

/-- The segments of an address are decoded to what was put in order. -/
theorem decoded_segmentsOf (path : List Char) :
    (segmentsOf ("/v1/".toList ++ path)).map (fun s => decodePercent s.toList) =
      (resolve [] ("v1".toList :: pieces isSeparator path)).map decodePercent := by
  rw [segmentsOf_version, List.map_map]
  refine List.map_congr_left fun s _ => ?_
  rw [Function.comp_apply, String.toList_ofList, decodePercent_encode]

/-- The segments of a plain path are in order, behind the version of the interface. -/
theorem resolve_of_isPlain {path : String} (h : IsPlain path) :
    resolve [] ("v1".toList :: pieces isSeparator (written path.toList)) =
      "v1".toList :: pieces isSlash path.toList := by
  obtain ⟨hwritten, hslashes, hnames⟩ := isPlain_iff.mp h
  have hall : ∀ s ∈ "v1".toList :: pieces isSlash path.toList, isDots s = false :=
    List.forall_mem_cons.mpr ⟨by decide, fun s hs => (hnames s hs).1⟩
  rw [hwritten, hslashes, resolve_of_names hall, List.reverse_nil, List.nil_append]

/-- If all bytes of a path are there after it was read, then it was read as it is. -/
theorem unchanged_of_decoded {path : List Char}
    (h : (resolve [] ("v1".toList :: pieces isSeparator (written path))).map decodePercent =
      ("v1".toList :: pieces isSlash path).map utf8) :
    written path = path ∧ pieces isSeparator path = pieces isSlash path ∧
      ∀ s ∈ pieces isSlash path, isDots s = false ∧ Uncoded s := by
  have hseparator : ∀ c, isSeparator c = true → (String.utf8EncodeChar c).length = 1 := by
    intro c hc
    simp only [isSeparator, Bool.or_eq_true, beq_iff_eq] at hc
    rcases hc with rfl | rfl <;> rfl
  have hslash : ∀ c, isSlash c = true → (String.utf8EncodeChar c).length = 1 := by
    intro c hc
    exact hseparator c (by simp [isSeparator, eq_of_beq hc])
  have hdots : ∀ s, isDots s = true → 0 < (decodePercent s).length := by
    intro s hs
    refine Host.length_decodePercent_pos ?_
    rintro rfl
    cases hs
  -- What was asked for weighs as much as what was read, and no step on the way makes it heavier.
  have hasked : weigh (fun s => (utf8 s).length) ("v1".toList :: pieces isSlash path) =
      (utf8 "v1".toList).length + 1 + ((utf8 path).length + 1) := by
    rw [Text.weigh_cons, Text.weigh_pieces hslash]
  have hread : weigh (fun s => (utf8 s).length) ("v1".toList :: pieces isSeparator (written path)) =
      (utf8 "v1".toList).length + 1 + ((utf8 (written path)).length + 1) := by
    rw [Text.weigh_cons, Text.weigh_pieces hseparator]
  have htotal := Text.weigh_eq_of_map_eq h
  obtain ⟨hordered, hnames⟩ := weigh_resolve_le (w := fun s => (decodePercent s).length) rfl hdots []
    ("v1".toList :: pieces isSeparator (written path))
  obtain ⟨hbytes, hlengths⟩ := Text.weigh_le (fun s => (Host.length_decodePercent_le s).1)
    ("v1".toList :: pieces isSeparator (written path))
  have hleft := (Text.utf8_sublist (written_sublist path)).length_le
  rw [Text.weigh_nil] at hordered hnames
  have hwritten : written path = path :=
    Text.eq_of_sublist_of_length_utf8 (written_sublist path) (by omega)
  have hnames := hnames (by omega)
  have huncoded : ∀ s ∈ "v1".toList :: pieces isSeparator (written path), Uncoded s :=
    fun s hs => (Host.length_decodePercent_le s).2 (hlengths (by omega) s hs)
  rw [resolve_of_names hnames, List.reverse_nil, List.nil_append,
    List.map_congr_left fun s hs => Host.decodePercent_of_uncoded (huncoded s hs)] at h
  have hpieces := (List.cons.inj (List.map_injective_iff.mpr (fun _ _ => Text.utf8_inj.mp) h)).2
  rw [hwritten] at hpieces hnames huncoded
  rw [hpieces] at hnames huncoded
  exact ⟨hwritten, hpieces, fun s hs =>
    ⟨hnames s (List.mem_cons_of_mem _ hs), huncoded s (List.mem_cons_of_mem _ hs)⟩⟩

/-- The address made of an origin and a path is for that path exactly when the path is plain. -/
theorem isFor_iff_isPlain {address path : String} (horigin : IsOrigin address) {url : Url}
    (h : parse? (address ++ "/v1/" ++ path) = some url) : IsFor url path ↔ IsPlain path := by
  obtain ⟨hsegments, hquery⟩ := parse?_origin horigin h
  have hdecoded := decoded_segmentsOf (written path.toList)
  rw [← hsegments] at hdecoded
  constructor
  · intro hfor
    exact isPlain_iff.mpr (unchanged_of_decoded (hdecoded.symm.trans hfor.segments))
  · intro hplain
    constructor
    case query =>
      exact hquery fun c hc => (hplain.chars c ((surviving_sublist _).subset hc)).2.1
    case segments =>
      have huncoded : ∀ s ∈ "v1".toList :: pieces isSlash path.toList, Uncoded s :=
        List.forall_mem_cons.mpr ⟨by decide, fun s hs => (hplain.segments s hs).2.2⟩
      rw [hdecoded, resolve_of_isPlain hplain]
      exact List.map_congr_left fun s hs => Host.decodePercent_of_uncoded (huncoded s hs)

/-- A plain path is asked for below the version of the interface. -/
theorem path_of_isPlain {address path : String} (horigin : IsOrigin address) {url : Url}
    (h : parse? (address ++ "/v1/" ++ path) = some url) (hplain : IsPlain path) :
    ∃ rest, url.path = "/v1/" ++ rest := by
  obtain ⟨hsegments, -⟩ := parse?_origin horigin h
  obtain ⟨first, others, hpieces⟩ :=
    List.exists_cons_of_ne_nil (Text.pieces_ne_nil isSlash path.toList)
  have hversion : "/" ++ String.ofList (encode isCodedInPath "v1".toList) ++ "/" = "/v1/" := by
    decide
  rw [Url.path, hsegments, segmentsOf_version, resolve_of_isPlain hplain, hpieces, List.map_cons,
    List.map_cons, List.map_cons, List.map_cons, String.join_cons, String.join_cons, ← hversion]
  exact ⟨_, by simp only [String.append_assoc]; rfl⟩

/-- One address is for one path. -/
theorem IsFor.unique {url : Url} {path other : String} (h : url.IsFor path)
    (hother : url.IsFor other) : other = path := by
  have hpieces := List.map_injective_iff.mpr (fun _ _ => Text.utf8_inj.mp)
    (hother.segments.symm.trans h.segments)
  rw [← String.toList_inj, ← Text.intercalate_pieces path.toList,
    ← Text.intercalate_pieces other.toList, (List.cons.inj hpieces).2]

end Url

/-- The data segment is never put before the first segment. -/
theorem startsWithout_insertData {path : List Char} (h : StartsWithout isSlash path) :
    StartsWithout isSlash (insertData path) := by
  cases path with
  | nil => exact h
  | cons c path =>
    have hc : (c == '/') = false := h c rfl
    have htake : (c :: path).takeWhile (· != '/') = c :: path.takeWhile (· != '/') :=
      List.takeWhile_cons_of_pos (by simp [bne, hc])
    rw [insertData, List.span_eq_takeWhile_dropWhile, htake]
    split
    · rename_i hspan
      obtain ⟨rfl, -⟩ := Prod.mk.inj hspan
      exact h
    · exact h

/-- The path of a secret starts without a slash. -/
theorem trimSlashesStart_apiPath (kvV2 : Bool) (path : String) :
    Text.trimSlashesStart (apiPath kvV2 path) = apiPath kvV2 path := by
  have hbare := (Text.strip_bare isSlash path.toList).1
  rw [← String.toList_inj, Text.trimSlashesStart, String.toList_ofList, Text.dropStart_eq_self_iff,
    apiPath, String.toList_ofList]
  split
  · exact hbare
  · exact startsWithout_insertData hbare

namespace Client

/-- A read asks for the path of its secret exactly when that path is plain. It stays below the
version of the interface then, and no other plain path is asked for with the same address. -/
theorem isFor_iff_of_request {client : Client} (horigin : Url.IsOrigin client.address)
    {path : String} {answer : Answer} {request : Request}
    (hsent : (client.read path answer).request = some request) :
    (request.url.IsFor (apiPath client.kvV2 path) ↔ Url.IsPlain (apiPath client.kvV2 path)) ∧
      (Url.IsPlain (apiPath client.kvV2 path) →
        (∃ rest, request.url.path = "/v1/" ++ rest) ∧
        ∀ other answer' request', (client.read other answer').request = some request' →
          Url.IsPlain (apiPath client.kvV2 other) → request'.url = request.url →
          apiPath client.kvV2 other = apiPath client.kvV2 path) := by
  have hparsed : ∀ {path answer request}, (client.read path answer).request = some request →
      Url.parse? (client.address ++ "/v1/" ++ apiPath client.kvV2 path) = some request.url := by
    intro path answer request hsent
    rw [request_of_read] at hsent
    have hurl := (url_token_of_request hsent).1
    rwa [addressOf, trimSlashesStart_apiPath] at hurl
  have hiff := Url.isFor_iff_isPlain horigin (hparsed hsent)
  refine ⟨hiff, fun hplain => ⟨Url.path_of_isPlain horigin (hparsed hsent) hplain, ?_⟩⟩
  intro other answer' request' hsent' hplain' hsame
  have hfor' := (Url.isFor_iff_isPlain horigin (hparsed hsent')).mpr hplain'
  rw [hsame] at hfor'
  exact (hiff.mpr hplain).unique hfor'

/-- The name of a server with a port is an origin. -/
theorem isOrigin_vault : Url.IsOrigin "http://vault.test:8200" :=
  ⟨"http", "vault.test:8200".toList, .inl rfl, by decide, ⟨'v', by simp, rfl⟩,
    by simp [Url.isSeparator, Url.endsPath]⟩

/-- A space in a path is asked for as it is. -/
theorem isFor_of_space :
    let client : Client := ⟨"http://vault.test:8200", "root", true, 5000⟩
    let request : Request :=
      ⟨⟨false, "vault.test", some 8200, ["v1", "secret", "data", "aws%20ci"], none⟩, "root"⟩
    (client.read "secret/aws ci" .silent).request = some request ∧
      request.url.IsFor "secret/data/aws ci" := by
  intro client request
  have hsent : (client.read "secret/aws ci" .silent).request = some request := by decide +kernel
  have hplain : Url.IsPlain (apiPath client.kvV2 "secret/aws ci") :=
    Url.isPlain_iff.mpr (by decide +kernel)
  exact ⟨hsent, (isFor_iff_of_request isOrigin_vault hsent).1.mpr hplain⟩

/-- Other paths are cut at a question mark, share their address with what has another fragment, or
leave the version of the interface. -/
theorem unplain_paths_go_elsewhere :
    let p : Profile :=
      { address := "http://vault.test:8200", token := "root", secretPath := "secret/aws"
        accessKeyName := "ak", secretKeyName := "sk", ttl := 6000, fetchTimeout := 5000
        timeout := 5000, caFile := none, kvV2 := true }
    let client : Client := ⟨"http://vault.test:8200", "root", true, 5000⟩
    let origin (segments : List String) (query : Option String) : Request :=
      ⟨⟨false, "vault.test", some 8200, segments, query⟩, "root"⟩
    Profile.ofRequired "http://vault.test:8200" "root" "secret/aws" "ak" "sk" = .ok p ∧
      ofProfile .empty p = .ok client ∧ Url.IsOrigin client.address ∧
      (client.read "secret/a?b" .silent).request =
        some (origin ["v1", "secret", "data", "a"] (some "b")) ∧
      (client.read "secret/a#b" .silent).request = (client.read "secret/a#c" .silent).request ∧
      apiPath client.kvV2 "secret/a#b" ≠ apiPath client.kvV2 "secret/a#c" ∧
      (client.read "a/data/../../../sys/health" .silent).request =
        some (origin ["sys", "health"] none) := by
  refine ⟨rfl, rfl, isOrigin_vault, ?_, ?_, ?_, ?_⟩ <;> decide +kernel

end Client

end FreshKeys.Store
