import KeyCustody.Proofs.Cloud.Requests
import KeyCustody.Proofs.Cloud.SignedRequests
import KeyCustody.Proofs.Json.Meaning
import KeyCustody.Proofs.Json.Writing

namespace KeyCustody.Service

/-! # Listings of aliases

A listing is an array of groups, or an object that holds that array. Either is read as the groups,
entry by entry; neither is taken for the other. -/

open Json (Node Reader Slot held)

variable {node : Node} {entry : AliasEntry} {group : AliasGroup} {json : Json}
  {items : List Json} {members : List (String × Json)}

/-- How deep the values may be that nobody asks for. -/
def strayDepth : Nat := 100

/-- The id of a key is a text, `null` or left out. -/
inductive ShowsKeyId : List Json → Option String → Prop where
  | missing : ShowsKeyId [] none
  | null : ShowsKeyId [.null] none
  | given (id : String) : ShowsKeyId [.text id] (some id)

/-- An object with the alias and the id of an entry, wherever they stand among its members. -/
inductive AliasEntry.ShownAs : AliasEntry → Json → Prop where
  | mk {entry : AliasEntry} {members : List (String × Json)}
      (name : held members "alias" = [.text entry.name])
      (keyId : ShowsKeyId (held members "key_id") entry.keyId)
      (stray : ∀ member ∈ members, member.2.depth ≤ strayDepth) :
      AliasEntry.ShownAs entry (.object members)

/-- An object with the entries of a group. Without entries it may leave their array out. -/
inductive AliasGroup.ShownAs : AliasGroup → Json → Prop where
  | listed {group : AliasGroup} {members : List (String × Json)} {items : List Json}
      (aliases : held members "aliases" = [.array items])
      (entries : List.Forall₂ AliasEntry.ShownAs group.entries items)
      (stray : ∀ member ∈ members, member.1 ≠ "aliases" → member.2.depth ≤ strayDepth) :
      AliasGroup.ShownAs group (.object members)
  | empty {members : List (String × Json)} (aliases : held members "aliases" = [])
      (stray : ∀ member ∈ members, member.1 ≠ "aliases" → member.2.depth ≤ strayDepth) :
      AliasGroup.ShownAs ⟨[]⟩ (.object members)

/-- The array of the groups, or an object with that array as its body. -/
inductive AliasListing.ShownAs : AliasListing → Json → Prop where
  | bare {groups : List AliasGroup} {items : List Json}
      (shown : List.Forall₂ AliasGroup.ShownAs groups items) :
      AliasListing.ShownAs ⟨groups⟩ (.array items)
  | wrapped {groups : List AliasGroup} {items : List Json} {members : List (String × Json)}
      (body : held members "body" = [.array items])
      (shown : List.Forall₂ AliasGroup.ShownAs groups items)
      (stray : ∀ member ∈ members, member.1 ≠ "body" → member.2.depth ≤ strayDepth) :
      AliasListing.ShownAs ⟨groups⟩ (.object members)

theorem membersDepth_le_of_held (name : String) {limit : Nat}
    (known : ∀ value ∈ held members name, value.depth ≤ limit)
    (stray : ∀ member ∈ members, member.1 ≠ name → member.2.depth ≤ limit) :
    Json.membersDepth members ≤ limit := by
  refine Json.membersDepth_le fun member isMember => ?_
  by_cases same : member.1 = name
  · exact known member.2 (Json.mem_held.mpr (same ▸ isMember))
  · exact stray member isMember same

theorem itemsDepth_le_of_shown {α : Type} {shows : α → Json → Prop} {values : List α} {limit : Nat}
    (all : List.Forall₂ shows values items)
    (shallow : ∀ value json, shows value json → json.depth ≤ limit) :
    Json.itemsDepth items ≤ limit := by
  have both := all.flip.imp fun json value shown => And.intro (shallow value json shown) shown
  exact Json.itemsDepth_le ((List.forall₂_and_left _ _).mp both).1

theorem AliasEntry.ShownAs.depth_le (shows : entry.ShownAs json) : json.depth ≤ strayDepth + 1 := by
  obtain ⟨-, -, stray⟩ := shows
  rw [Json.depth]
  exact Nat.succ_le_succ (Json.membersDepth_le stray)

theorem AliasGroup.ShownAs.depth_le (shows : group.ShownAs json) : json.depth ≤ strayDepth + 3 := by
  cases shows with
  | @listed _ members items aliases entries stray =>
      have shallow := itemsDepth_le_of_shown entries fun _ _ => AliasEntry.ShownAs.depth_le
      have members : Json.membersDepth members ≤ strayDepth + 2 := by
        refine membersDepth_le_of_held "aliases" ?_ fun member isMember other =>
          Nat.le_trans (stray member isMember other) (by omega)
        rw [aliases]
        simp only [List.mem_singleton, forall_eq, Json.depth]
        omega
      rw [Json.depth]
      omega
  | @empty members aliases stray =>
      have members : Json.membersDepth members ≤ strayDepth :=
        membersDepth_le_of_held "aliases" (by simp [aliases]) stray
      rw [Json.depth]
      omega

theorem AliasListing.ShownAs.depth_le {listing : AliasListing} (shows : listing.ShownAs json) :
    json.depth ≤ Json.depthLimit := by
  have limit : strayDepth + 5 ≤ Json.depthLimit := by decide
  cases shows with
  | bare shown =>
      have shallow := itemsDepth_le_of_shown shown fun _ _ => AliasGroup.ShownAs.depth_le
      rw [Json.depth]
      omega
  | @wrapped groups items members body shown stray =>
      have shallow := itemsDepth_le_of_shown shown fun _ _ => AliasGroup.ShownAs.depth_le
      have members : Json.membersDepth members ≤ strayDepth + 4 := by
        refine membersDepth_le_of_held "body" ?_ fun member isMember other =>
          Nat.le_trans (stray member isMember other) (by omega)
        rw [body]
        simp only [List.mem_singleton, forall_eq, Json.depth]
        omega
      rw [Json.depth]
      omega

theorem ShowsKeyId.mayHold {values : List Json} {keyId : Option String} {found : List Node}
    (shows : ShowsKeyId values keyId) (means : List.Forall₂ Node.Means found values) :
    Json.MayHold (fun node text => node.Means (.text text)) found keyId := by
  cases shows with
  | missing => exact Json.mayHold_none means
  | null =>
      obtain ⟨node, rfl, nodeMeans⟩ := Json.exists_of_means_one means
      rw [Json.means_null_iff.mp nodeMeans]
      exact .null
  | given id => exact Json.mayHold_of_means means fun _ means => means

theorem AliasEntry.fields_independent : AliasEntry.fields.Pairwise Slot.Independent :=
  List.pairwise_pair.mpr <|
    Json.independent_of_puts (by decide) (fun _ _ => rfl) (fun _ _ => rfl) fun _ _ _ => rfl

theorem AliasEntry.ShownAs.read (shows : entry.ShownAs json) (means : node.Means json) :
    Reader.record AliasEntry.fields ⟨"", none⟩ node = .ok entry := by
  obtain ⟨name, keyId, -⟩ := shows
  obtain ⟨values, presents, means⟩ := means.presents (AliasEntry.fields.map Slot.name)
  refine (Json.record_eq_ok_iff AliasEntry.fields_independent).mpr ⟨values, presents, ?_⟩
  have nameMeans := means "alias"
  have keyMeans := means "key_id"
  rw [name] at nameMeans
  obtain ⟨nameNode, nameValues, nameMeans⟩ := Json.exists_of_means_one nameMeans
  refine Option.bind_eq_some_iff.mpr ⟨_, Json.take_must_eq_some_iff.mpr
    ⟨nameNode, _, nameValues, Json.means_text_iff.mp nameMeans, rfl⟩, ?_⟩
  exact Option.bind_eq_some_iff.mpr ⟨_, (Json.take_may_text_eq_some_iff rfl).mpr
    ⟨_, keyId.mayHold keyMeans, rfl⟩, rfl⟩

/-- An array of values that are shown by items is read as those values. -/
theorem list_read_of_shown {α : Type} {read : Reader α} {shows : α → Json → Prop}
    (reads : ∀ value json node, shows value json → node.Means json → read node = .ok value)
    {values : List α} (shown : List.Forall₂ shows values items)
    (means : node.Means (.array items)) : Reader.list read node = .ok values := by
  cases means with
  | array means =>
      obtain ⟨nodes, lists, all⟩ := means.lists
      refine Reader.list_eq_ok_iff.mpr ⟨_, nodes, rfl, lists, ?_⟩
      clear means lists
      induction shown generalizing nodes with
      | nil =>
          cases all
          exact .nil
      | cons head _ induction =>
          cases all with
          | cons headMeans all => exact .cons (reads _ _ _ head headMeans) (induction _ all)

/-- An object whose only member that counts is an array. -/
theorem record_read_of_shown {α σ : Type} {read : Reader α} {shows : α → Json → Prop}
    (reads : ∀ value json node, shows value json → node.Means json → read node = .ok value)
    {values : List α} {name : String} (array : held members name = [.array items])
    (shown : List.Forall₂ shows values items) (put : List α → σ → σ) (blank : σ)
    (means : node.Means (.object members)) :
    Reader.record [.may name (Reader.list read) put] blank node = .ok (put values blank) := by
  obtain ⟨found, presents, held⟩ := means.presents [name]
  have arrayMeans := held name
  rw [array] at arrayMeans
  obtain ⟨arrayNode, only, arrayMeans⟩ := Json.exists_of_means_one arrayMeans
  exact (Json.record_eq_ok_iff (List.pairwise_singleton _ _)).mpr ⟨found, presents,
    Option.bind_eq_some_iff.mpr ⟨_, Json.take_may_eq_some_iff.mpr
      (.inr ⟨arrayNode, values, only, list_read_of_shown reads shown arrayMeans, rfl⟩), rfl⟩⟩

theorem AliasGroup.ShownAs.read (shows : group.ShownAs json) (means : node.Means json) :
    AliasGroup.reader node = .ok group := by
  cases shows with
  | listed aliases entries stray =>
      exact record_read_of_shown (fun _ _ _ => AliasEntry.ShownAs.read) aliases entries _ _ means
  | empty aliases stray =>
      obtain ⟨found, presents, held⟩ := means.presents ["aliases"]
      have missing := held "aliases"
      rw [aliases, List.forall₂_nil_right_iff] at missing
      exact (Json.record_eq_ok_iff (List.pairwise_singleton _ _)).mpr ⟨found, presents,
        Option.bind_eq_some_iff.mpr ⟨_, Json.take_may_eq_some_iff.mpr (.inl ⟨missing, rfl⟩), rfl⟩⟩

/-- An array is taken as it is, and no object is taken for one. -/
theorem AliasListing.ShownAs.read {listing : AliasListing} (shows : listing.ShownAs json)
    (means : node.Means json) : AliasListing.reader node = .ok listing := by
  rw [AliasListing.reader, means.value shows.depth_le]
  cases shows with
  | bare shown =>
      have listed := list_read_of_shown (fun _ _ _ => AliasGroup.ShownAs.read) shown means
      simp [AliasListing.bareReader, listed, bind, Except.bind, Except.map, pure, Except.pure]
  | wrapped body shown stray =>
      have wrapped := record_read_of_shown (fun _ _ _ => AliasGroup.ShownAs.read) body shown
        (fun value _ => (⟨value⟩ : AliasListing)) ⟨[]⟩ means
      cases means with
      | object means =>
          simp [AliasListing.bareReader, Reader.list, AliasListing.wrappedReader, wrapped, bind,
            Except.bind, Except.map, Except.mapError]

theorem AliasListing.ShownAs.run {listing : AliasListing} {body : Bytes}
    (shows : listing.ShownAs json) (text : json.WrittenAs body) :
    AliasListing.reader.run body = .ok listing := by
  obtain ⟨node, isText, means⟩ := text
  exact isText.run (shows.read means)

end KeyCustody.Service

namespace KeyCustody.Cloud

open Service (AliasEntry AliasGroup AliasListing)

variable {account : Account} {σ : Type}

/-- What a call for the aliases gives where its one request is answered by a body. -/
theorem value_of_answered (world : World Wire.Question Wire.Question.Reply σ) (state : σ)
    {request : Http.Request} {head : Http.Head} {body : Bytes} (accepted : head.status < 300)
    (answered : requestsOf ((answerCall account .listAliases).run world state).exchanges =
      [⟨request, .whole head body⟩]) :
    ((answerCall account .listAliases).run world state).value =
      KeyService.decode AliasListing.reader body :=
  KeyService.value_of_ask world state accepted answered

/-- Two groups, one of them without entries. -/
def someGroups : List AliasGroup := [⟨[⟨"alias/a", some "k1"⟩, ⟨"alias/b", none⟩]⟩, ⟨[]⟩]

def someGroupsShown : List Json :=
  [.object [("aliases", .array
      [.object [("key_id", .text "k1"), ("alias", .text "alias/a")],
        .object [("alias", .text "alias/b"), ("key_id", .null)]])],
    .object []]

theorem someGroups_shown : List.Forall₂ AliasGroup.ShownAs someGroups someGroupsShown := by
  refine .cons (.listed rfl (.cons ?_ (.cons ?_ .nil)) (by simp)) ?_
  · exact .mk rfl (.given "k1") (by simp [Json.depth])
  · exact .mk rfl .null (by simp [Json.depth])
  · exact .cons (.empty rfl (by simp)) .nil

/-- The server that the account speaks to answers it. -/
theorem sample_answered (answer : Http.Answer) :
    ∃ request, requestsOf ((answerCall (KeyService.sample "http://h:8080/") .listAliases).run
      (Scripted.world "h:8080") ⟨[answer], 0, 0⟩).exchanges = [⟨request, answer⟩] := by
  have address : Url.parse ("http://h:8080" ++
      KeyService.path (KeyService.sample "http://h:8080/") KeyService.listAliases) =
        .ok ⟨"http", some ⟨"", "h", some 8080⟩, "/v1.0/p1/kms/aliases", none, none⟩ := by
    decide +kernel
  exact KeyService.sample_answers address (by decide +kernel) rfl answer

/-- A listing of the aliases is the same in either form. -/
theorem listing_forms_agree (account : Account) (groups : List AliasGroup) (shown : List Json)
    (shows : List.Forall₂ AliasGroup.ShownAs groups shown) (bare wrapped : Bytes)
    (bareText : (Json.array shown).WrittenAs bare)
    (wrappedText : (Json.object [("body", .array shown)]).WrittenAs wrapped) :
    ∃ listing : AliasListing, listing.groups = groups ∧
      listing.aliases = (groups.flatMap AliasGroup.entries).map AliasEntry.name ∧
      ∀ body ∈ [bare, wrapped], ∀ (σ : Type) (world : World Wire.Question Wire.Question.Reply σ)
        (state : σ) (request : Http.Request) (head : Http.Head), head.status < 300 →
        requestsOf ((answerCall account .listAliases).run world state).exchanges =
          [⟨request, .whole head body⟩] →
        ((answerCall account .listAliases).run world state).value = .ok listing := by
  refine ⟨⟨groups⟩, rfl, by simp [AliasListing.aliases, List.map_flatMap], ?_⟩
  intro body form σ world state request head accepted answered
  have runs : AliasListing.reader.run body = .ok ⟨groups⟩ := by
    simp only [List.mem_cons, List.not_mem_nil, or_false] at form
    rcases form with rfl | rfl
    · exact (AliasListing.ShownAs.bare shows).run bareText
    · have wraps : AliasListing.ShownAs ⟨groups⟩ (.object [("body", .array shown)]) :=
        .wrapped rfl shows (by simp)
      exact wraps.run wrappedText
  rw [value_of_answered world state accepted answered, KeyService.decode, runs]
  rfl

theorem someGroups_listed :
    List.Forall₂ AliasGroup.ShownAs someGroups someGroupsShown ∧
      (Json.array someGroupsShown).WrittenAs (Text.octets (Json.array someGroupsShown).compact) ∧
      (Json.object [("body", .array someGroupsShown)]).WrittenAs
        (Text.octets (Json.object [("body", .array someGroupsShown)]).compact) ∧
      ∃ listing : AliasListing, listing.aliases = ["alias/a", "alias/b"] ∧
        ∀ form ∈ [Json.array someGroupsShown, .object [("body", .array someGroupsShown)]],
          ((answerCall (KeyService.sample "http://h:8080/") .listAliases).run
            (Scripted.world "h:8080")
            ⟨[.whole ⟨200, []⟩ (Text.octets form.compact)], 0, 0⟩).value = .ok listing := by
  have bare : (Json.array someGroupsShown).WrittenAs _ := Json.writtenAs_compact (by
    simp [someGroupsShown, Json.ReadsBack, Json.itemsReadBack, Json.membersReadBack])
  have wrapped : (Json.object [("body", .array someGroupsShown)]).WrittenAs _ :=
    Json.writtenAs_compact (by
      simp [someGroupsShown, Json.ReadsBack, Json.itemsReadBack, Json.membersReadBack])
  obtain ⟨listing, groups, aliases, listed⟩ :=
    listing_forms_agree (KeyService.sample "http://h:8080/") someGroups someGroupsShown
      someGroups_shown _ _ bare wrapped
  refine ⟨someGroups_shown, bare, wrapped, listing, aliases.trans rfl, fun form isForm => ?_⟩
  obtain ⟨request, answered⟩ := sample_answered (.whole ⟨200, []⟩ (Text.octets form.compact))
  refine listed _ ?_ _ _ _ request ⟨200, []⟩ (by decide) answered
  simp only [List.mem_cons, List.not_mem_nil, or_false] at isForm ⊢
  rcases isForm with rfl | rfl
  · exact .inl rfl
  · exact .inr rfl

end KeyCustody.Cloud
