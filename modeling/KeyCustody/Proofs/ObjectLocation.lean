import KeyCustody.ObjectLocation
import KeyCustody.Proofs.Text.Cutting

namespace KeyCustody.ObjectLocation

/-! # URLs and the locations read from them

A URL that is read is made up of its bucket, the last `.obs` of its host, what follows that
mark in the host, and its object key. The location gives the URL back if a dot follows the
mark. Otherwise the location puts a dot there and names another host. A URL that is written
from its parts gives them back unless one of them holds a sign that ends it early. -/

variable {url : List Char} {location : ObjectLocation}

/-- How a URL is put together, and which location is read from it. -/
structure Parts (url : List Char) (location : ObjectLocation) (bucket server key : List Char) :
    Prop where
  whole : url = scheme ++ (bucket ++ (marker ++ server) ++ '/' :: key)
  bucketNamed : bucket ≠ []
  bucketLabel : '/' ∉ bucket
  serverNamed : serverOf server ≠ []
  serverLabel : '/' ∉ server
  keyNamed : key ≠ []
  /-- No later `.obs` stands in the host. -/
  lastMarker : ¬ marker <:+: (marker ++ server).tail
  read : location =
    ⟨String.ofList bucket, String.ofList (serverOf server), String.ofList key⟩

theorem parts_of_parse (parsed : parseParts url = .ok location) :
    ∃ bucket server key, Parts url location bucket server key := by
  rw [parseParts] at parsed
  split at parsed
  · cases parsed
  rename_i address schemed
  dsimp only at parsed
  split at parsed
  · cases parsed
  rename_i bucket server cut
  split at parsed
  · cases parsed
  rename_i bucketNamed
  split at parsed
  · cases parsed
  rename_i slash key path
  split at parsed
  · cases parsed
  rename_i keyNamed
  split at parsed
  · cases parsed
  rename_i serverNamed
  cases parsed
  rw [List.isEmpty_iff] at bucketNamed keyNamed serverNamed
  obtain ⟨host, last⟩ := Text.breakAtLast_eq_some (by decide) cut
  have labels := Text.not_mem_takeWhile '/' address
  rw [host, List.mem_append, List.mem_append, not_or, not_or] at labels
  have address_eq := Text.eq_takeWhile_append path
  rw [host] at address_eq
  refine ⟨bucket, server, key, ?_, bucketNamed, labels.1, serverNamed, labels.2.2, keyNamed,
    last, rfl⟩
  rw [← address_eq, List.append_eq_of_isPrefixOf?_eq_some schemed]

theorem Parts.parsed {bucket server key : List Char}
    (parts : Parts url location bucket server key) : parseParts url = .ok location := by
  have schemed : scheme.isPrefixOf? url =
      some (bucket ++ (marker ++ server) ++ '/' :: key) := by
    rw [parts.whole]
    exact List.isPrefixOf?_eq_some_iff_append_eq.mpr rfl
  have label : ∀ c ∈ bucket ++ (marker ++ server), decide (c ≠ '/') = true := by
    intro c member
    simp only [List.mem_append] at member
    rw [decide_eq_true_iff]
    rintro rfl
    rcases member with member | member | member
    · exact parts.bucketLabel member
    · exact absurd member (by decide)
    · exact parts.serverLabel member
  have cut := @Text.breakAtLast_append marker bucket server (by decide) parts.lastMarker
  rw [parseParts, schemed]
  simp only [List.takeWhile_append_of_pos label, List.dropWhile_append_of_pos label]
  simp [cut, parts.bucketNamed, parts.serverNamed, parts.keyNamed, parts.read]

theorem eq_dot_cons_serverOf_iff (server : List Char) :
    server = '.' :: serverOf server ↔ ∃ host, server = '.' :: host := by
  constructor
  · intro dotted
    exact ⟨_, dotted⟩
  · rintro ⟨host, rfl⟩
    rfl

theorem ofList_scheme : String.ofList scheme = "https://" := String.ofList_toList

theorem ofList_marker : String.ofList marker = ".obs" := String.ofList_toList

theorem Parts.url_eq {bucket server key : List Char}
    (parts : Parts url location bucket server key) :
    String.ofList url =
      "https://" ++ location.bucket ++ ".obs" ++ String.ofList server ++ "/" ++
        location.objectKey := by
  have slash : String.ofList ('/' :: key) = "/" ++ String.ofList key :=
    @String.ofList_append ['/'] key
  rw [parts.whole, parts.read, String.ofList_append, String.ofList_append,
    String.ofList_append, String.ofList_append, slash, ofList_scheme, ofList_marker]
  simp only [String.append_assoc]

theorem url_eq_marker_dot (location : ObjectLocation) :
    location.url = "https://" ++ location.bucket ++ ".obs" ++
      ("." ++ location.server) ++ "/" ++ location.objectKey := by
  have dots : "." ++ "obs." = ".obs" ++ "." := by decide
  simp only [url, endpoint, String.append_assoc]
  rw [← @String.append_assoc ".", dots, String.append_assoc]

/-- Whether a dot follows the mark decides whether a location names the host of its URL. -/
theorem Parts.eq_url_iff {bucket server key : List Char}
    (parts : Parts url location bucket server key) :
    String.ofList url = location.url ↔ ∃ host, server = '.' :: host := by
  rw [parts.url_eq, url_eq_marker_dot, ← eq_dot_cons_serverOf_iff, ← String.toList_inj]
  simp only [String.toList_append, String.toList_ofList, List.append_cancel_left_eq,
    List.append_cancel_right_eq, parts.read]
  rfl

/-- Every URL that is read is its bucket, the last `.obs` of its host, the rest of the host
and its object key. It is the location's own URL exactly if a dot follows the mark. -/
theorem url_eq_iff_dot_after_marker (url : String) (location : ObjectLocation)
    (parsed : parse url = .ok location) :
    ∃ server,
      url = "https://" ++ location.bucket ++ ".obs" ++ server ++ "/" ++ location.objectKey ∧
      '/' ∉ location.bucket.toList ∧ '/' ∉ server.toList ∧
      ¬ marker <:+: (marker ++ server.toList).tail ∧
      (url = "https://" ++ location.bucket ++ "." ++ location.endpoint ++ "/" ++
          location.objectKey ↔
        ∃ host, server = "." ++ host) := by
  have partsParsed : parseParts url.toList = .ok location := by
    unfold parse at parsed
    cases result : parseParts url.toList with
    | error reason => rw [result] at parsed; cases parsed
    | ok found => rw [result] at parsed; cases parsed; rfl
  obtain ⟨bucket, server, key, parts⟩ := parts_of_parse partsParsed
  have whole := parts.url_eq
  have exactly := parts.eq_url_iff
  rw [String.ofList_toList] at whole exactly
  refine ⟨String.ofList server, whole, ?_, ?_, ?_, ?_⟩
  · rw [parts.read, String.toList_ofList]
    exact parts.bucketLabel
  · rw [String.toList_ofList]
    exact parts.serverLabel
  · rw [String.toList_ofList]
    exact parts.lastMarker
  · refine exactly.trans ⟨?_, ?_⟩
    · rintro ⟨host, rfl⟩
      exact ⟨String.ofList host, String.toList_injective (by simp)⟩
    · rintro ⟨host, dotted⟩
      have lists := congrArg String.toList dotted
      rw [String.toList_ofList, String.toList_append] at lists
      exact ⟨host.toList, lists⟩

/-- A bucket may end in the mark, and a key may hold slashes. -/
theorem host_named_for_bucket_holding_marker :
    parse "https://my.obs.obs.r1.example.com/keys/kms.txt" =
        .ok ⟨"my.obs", "r1.example.com", "keys/kms.txt"⟩ ∧
      ∃ server,
        "https://my.obs.obs.r1.example.com/keys/kms.txt" =
          "https://" ++ "my.obs" ++ ".obs" ++ server ++ "/" ++ "keys/kms.txt" ∧
        ∃ host, server = "." ++ host := by
  have parsed : parse "https://my.obs.obs.r1.example.com/keys/kms.txt" =
      .ok ⟨"my.obs", "r1.example.com", "keys/kms.txt"⟩ := by decide +kernel
  obtain ⟨server, whole, -, -, -, exactly⟩ := url_eq_iff_dot_after_marker _ _ parsed
  exact ⟨parsed, server, whole, exactly.mp (by decide)⟩

/-- Without a dot after the mark, the location names a host that is not in its URL. -/
theorem another_host_named_without_dot :
    ∃ url location, parse url = .ok location ∧
      location.endpoint = "obs.x" ∧
      url ≠ "https://" ++ location.bucket ++ "." ++ location.endpoint ++ "/" ++
        location.objectKey := by
  refine ⟨"https://b.obsx/k", ⟨"b", "x", "k"⟩, ?_, ?_, ?_⟩
  · decide +kernel
  · decide
  · decide

/-- What lets the parts of a location be told apart in a URL. The bucket and the key may hold
any mark. -/
structure Separable (location : ObjectLocation) : Prop where
  bucketNamed : location.bucket ≠ ""
  bucketLabel : '/' ∉ location.bucket.toList
  serverNamed : location.server ≠ ""
  serverLabel : '/' ∉ location.server.toList
  serverStart : ¬ "obs".toList <+: location.server.toList
  serverUnmarked : ¬ ".obs".toList <:+: location.server.toList
  keyNamed : location.objectKey ≠ ""

/-- A later mark may also start at the dot that parts the first one from the server. -/
theorem marker_infix_after_dot_iff (server : List Char) :
    marker <:+: (marker ++ '.' :: server).tail ↔
      "obs".toList <+: server ∨ marker <:+: server := by
  have dotted : marker = '.' :: "obs".toList := by decide
  have tail : (marker ++ '.' :: server).tail = "obs".toList ++ '.' :: server := by
    rw [dotted]
    rfl
  have starting : marker <+: '.' :: server ↔ "obs".toList <+: server := by
    rw [dotted, List.cons_prefix_cons]
    simp
  rw [tail, ← starting, ← List.infix_cons_iff]
  constructor
  · intro occurs
    rw [dotted] at occurs ⊢
    exact Text.infix_of_infix_append (by decide) occurs
  · intro occurs
    exact occurs.trans (List.suffix_append _ _).isInfix

theorem parts_iff_separable (location : ObjectLocation) :
    Parts (scheme ++ (location.bucket.toList ++ (marker ++ '.' :: location.server.toList) ++
        '/' :: location.objectKey.toList)) location
      location.bucket.toList ('.' :: location.server.toList) location.objectKey.toList ↔
    Separable location := by
  have unmarked := (marker_infix_after_dot_iff location.server.toList).not
  rw [not_or] at unmarked
  constructor
  · intro parts
    have server := parts.serverLabel
    rw [List.mem_cons, not_or] at server
    have ⟨start, later⟩ := unmarked.mp parts.lastMarker
    exact ⟨mt String.toList_eq_nil_iff.mpr parts.bucketNamed, parts.bucketLabel,
      mt String.toList_eq_nil_iff.mpr parts.serverNamed, server.2, start, later,
      mt String.toList_eq_nil_iff.mpr parts.keyNamed⟩
  · intro separable
    refine ⟨rfl, mt String.toList_eq_nil_iff.mp separable.bucketNamed, separable.bucketLabel,
      mt String.toList_eq_nil_iff.mp separable.serverNamed, ?_,
      mt String.toList_eq_nil_iff.mp separable.keyNamed,
      unmarked.mpr ⟨separable.serverStart, separable.serverUnmarked⟩, ?_⟩
    · simp [separable.serverLabel]
    · simp [serverOf]

theorem parse_eq_ok_iff (url : String) (location : ObjectLocation) :
    parse url = .ok location ↔ parseParts url.toList = .ok location := by
  rw [parse]
  cases parseParts url.toList <;> simp [Except.mapError]

theorem toList_written (location : ObjectLocation) :
    ("https://" ++ location.bucket ++ ".obs." ++ location.server ++ "/" ++
        location.objectKey).toList =
      scheme ++ (location.bucket.toList ++ (marker ++ '.' :: location.server.toList) ++
        '/' :: location.objectKey.toList) := by
  have dotted : ".obs.".toList = marker ++ ['.'] := by decide
  have slash : "/".toList = ['/'] := by decide
  rw [String.toList_append, String.toList_append, String.toList_append, String.toList_append,
    String.toList_append, dotted, slash]
  simp only [List.append_assoc, List.cons_append, List.nil_append]
  rfl

theorem region_before_dot (location : ObjectLocation) :
    '.' ∉ location.region.toList ∧
      (location.server = location.region ∨
        ∃ others, location.server = location.region ++ "." ++ others) := by
  have region_eq : location.region.toList = location.server.toList.takeWhile (· ≠ '.') :=
    String.toList_ofList
  constructor
  · rw [region_eq]
    exact Text.not_mem_takeWhile '.' location.server.toList
  · cases after : location.server.toList.dropWhile (· ≠ '.') with
    | nil =>
        have whole := List.takeWhile_append_dropWhile (p := (· ≠ '.')) (l := location.server.toList)
        rw [after, List.append_nil, ← region_eq] at whole
        exact .inl (String.toList_inj.mp whole.symm)
    | cons c others =>
        have whole := Text.eq_takeWhile_append after
        rw [← region_eq] at whole
        refine .inr ⟨String.ofList others, String.toList_inj.mp ?_⟩
        simpa using whole

/-- A URL written from its parts gives exactly these back, if and only if the parts can be
told apart. Requests for the object go to the host `obs.<server>` and are signed for the
server's text before its first dot. -/
theorem read_back_iff_separable (location : ObjectLocation) :
    (parse ("https://" ++ location.bucket ++ ".obs." ++ location.server ++ "/" ++
        location.objectKey) = .ok location ↔ Separable location) ∧
      location.endpoint = "obs." ++ location.server ∧
      '.' ∉ location.region.toList ∧
      (location.server = location.region ∨
        ∃ others, location.server = location.region ++ "." ++ others) := by
  refine ⟨?_, rfl, region_before_dot location⟩
  rw [parse_eq_ok_iff, toList_written, ← parts_iff_separable]
  constructor
  · intro parsed
    obtain ⟨bucket, server, key, parts⟩ := parts_of_parse parsed
    have whole := parts.whole
    have bucketRead : location.bucket.toList = bucket := by rw [parts.read, String.toList_ofList]
    have keyRead : location.objectKey.toList = key := by rw [parts.read, String.toList_ofList]
    simp only [bucketRead, keyRead, List.append_cancel_left_eq,
      List.append_cancel_right_eq] at whole
    subst bucketRead keyRead whole
    exact parts
  · exact Parts.parsed

/-- A server that starts with `obs` gives a later mark. -/
example : parse "https://b.obs.obs.x/k" = .ok ⟨"b.obs", "x", "k"⟩ := by decide +kernel

end KeyCustody.ObjectLocation
