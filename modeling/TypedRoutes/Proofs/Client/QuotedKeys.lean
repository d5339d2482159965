import TypedRoutes.Proofs.Client.Uncommented

/-!
# Line breaks in quoted keys

The strings between single quotes in both declarations are the keys that are no identifiers:
segments of paths, method keys, and names of properties. A quote and a backslash in a key are
escaped, but no other character is, so a line feed or a carriage return in a key stands in its
string as it is, which no string between single quotes may hold.

`RouteForest.quotedKeys_break_iff` says that this is the only way: a string of a declaration is
broken if and only if a key that the declaration shows holds a line break. The keys that it shows
are read off the routes (`ShownKey`).
-/

set_option autoImplicit false

namespace TypedRoutes

open Text (Lexeme lexemes)

/-! ## Keys with line breaks -/

/-- The text holds a character that ends a line of a module. -/
def Text.BreaksLine (cs : List Char) : Prop := '\n' ∈ cs ∨ '\r' ∈ cs

instance (cs : List Char) : Decidable (Text.BreaksLine cs) := inferInstanceAs (Decidable (_ ∨ _))

open Text (BreaksLine)

namespace PropertyKey

/-- Quotes neither mend a line break nor make one. -/
theorem breaksLine_flatMap_escapedChar_iff (key : List Char) :
    BreaksLine (key.flatMap escapedChar) ↔ BreaksLine key :=
  or_congr (mem_flatMap_escapedChar_iff (by decide)) (mem_flatMap_escapedChar_iff (by decide))

theorem breaksLine_quotedBody?_iff {key : String} {body : List Char}
    (h : quotedBody? key = some body) : BreaksLine body ↔ BreaksLine key.toList := by
  unfold quotedBody? at h
  split at h
  · cases h
  · obtain rfl := Option.some.inj h
    exact breaksLine_flatMap_escapedChar_iff key.toList

/-- A key with a line break is no identifier, so it stands between quotes. -/
theorem exists_quotedBody?_of_breaksLine {key : String} (h : BreaksLine key.toList) :
    ∃ body, quotedBody? key = some body := by
  have hplain : isIdentifier key ≠ true := by
    intro hident
    have hname := (isNameChar_of_isPlain hident).2
    rcases h with h | h
    · exact absurd (hname _ h) (by decide)
    · exact absurd (hname _ h) (by decide)
  exact ⟨_, if_neg hplain⟩

end PropertyKey

/-! ## The keys in a forest -/

section

variable {names : Route → List String} {name : String}

theorem mem_methodNames_iff {methods : List (String × Route)} :
    name ∈ methodNames names methods ↔
      ∃ key route, (key, route) ∈ methods ∧ (name = key ∨ name ∈ names route) := by
  simp [methodNames]

theorem mem_shownNames_iff {tree : RouteTree} :
    name ∈ tree.shownNames names ↔
      name ∈ methodNames names tree.methods ∨ name ∈ forestNames names tree.children := by
  obtain ⟨isDynamic, methods, children⟩ := tree
  simp [RouteTree.shownNames, RouteTree.methods, RouteTree.children]

/-- The names of a forest are the key of the first tree, the names below it and those of the
rest. -/
theorem mem_forestNames_cons_iff {key : String} {tree : RouteTree}
    {rest : List (String × RouteTree)} :
    name ∈ forestNames names ((key, tree) :: rest) ↔
      name = key ∨ name ∈ tree.shownNames names ∨ name ∈ forestNames names rest := by
  simp [forestNames]

/-- The tree at the path shows the name: as its own key, or at its methods. -/
def ShownAt (names : Route → List String) (name : String) (path : List String) (tree : RouteTree) :
    Prop :=
  path.getLast? = some name ∨ name ∈ methodNames names tree.methods

/-- What a tree shows, it shows below every other key too. -/
theorem shownAt_cons_iff {forest : RouteForest} {path : List String} {tree : RouteTree}
    (hat : forest.At path tree) (key : String) :
    ShownAt names name (key :: path) tree ↔ ShownAt names name path tree := by
  have hlast : (key :: path).getLast? = path.getLast? := by
    cases hat with
    | here => rfl
    | inside => rfl
  rw [ShownAt, ShownAt, hlast]

mutual

/-- Every name below a node is shown at some node that a path leads to, by induction on the tree. -/
theorem RouteTree.exists_at_of_mem_shownNames : ∀ (tree : RouteTree),
    name ∈ tree.shownNames names →
      name ∈ methodNames names tree.methods ∨
        ∃ path below, tree.children.At path below ∧ ShownAt names name path below
  | .node _ methods children, h => by
    rcases mem_shownNames_iff.1 h with h | h
    · exact .inl h
    · exact .inr (exists_at_of_mem_forestNames children h)

/-- Every name of a forest is shown at some node that a path leads to. -/
theorem exists_at_of_mem_forestNames : ∀ (forest : List (String × RouteTree)),
    name ∈ forestNames names forest →
      ∃ path tree, RouteForest.At forest path tree ∧ ShownAt names name path tree
  | [], h => nomatch h
  | (key, tree) :: rest, h => by
    rcases mem_forestNames_cons_iff.1 h with rfl | h | h
    · exact ⟨[name], tree, .here List.mem_cons_self, .inl rfl⟩
    -- A name of the first tree stands at its key or below it.
    · rcases tree.exists_at_of_mem_shownNames h with h | ⟨path, below, hat, hshown⟩
      · exact ⟨[key], tree, .here List.mem_cons_self, .inr h⟩
      · exact ⟨key :: path, below, .inside List.mem_cons_self hat,
          (shownAt_cons_iff hat key).2 hshown⟩
    · obtain ⟨path, below, hat, hshown⟩ := exists_at_of_mem_forestNames rest h
      exact ⟨path, below, hat.cons, hshown⟩

end

/-- The key of a tree of the forest, and every name below it, are names of the forest. -/
theorem mem_forestNames_of_mem {forest : RouteForest} {key : String} {tree : RouteTree}
    (htree : (key, tree) ∈ forest) (h : name = key ∨ name ∈ tree.shownNames names) :
    name ∈ forestNames names forest := by
  induction forest with
  | nil => cases htree
  | cons entry rest ih =>
    apply mem_forestNames_cons_iff.2
    rcases List.mem_cons.1 htree with rfl | htree
    · exact or_assoc.1 (.inl h)
    · exact .inr (.inr (ih htree))

/-- The names that a forest shows are those that its trees show, each at its path. -/
theorem mem_forestNames_iff {forest : RouteForest} :
    name ∈ forestNames names forest ↔
      ∃ path tree, forest.At path tree ∧ ShownAt names name path tree := by
  constructor
  · exact exists_at_of_mem_forestNames forest
  · rintro ⟨path, tree, hat, hshown⟩
    induction hat with
    | here hmem =>
      refine mem_forestNames_of_mem hmem (hshown.imp (fun hlast => ?_) fun h => ?_)
      · exact (Option.some.inj hlast).symm
      · exact mem_shownNames_iff.2 (.inl h)
    | inside hmem hat ih =>
      have hbelow := ih ((shownAt_cons_iff hat _).1 hshown)
      exact mem_forestNames_of_mem hmem (.inr (mem_shownNames_iff.2 (.inr hbelow)))

end

/-! ## The keys in a declaration -/

/-- The declaration of the routes shows the key, if the writer of a route shows these names. -/
inductive ShownKey (names : Route → List String) (mount : Option String) (routes : List Route)
    (key : String) : Prop
  /-- A segment of a path. -/
  | segment {r : Route} : r ∈ routes → key ∈ r.pathKeys mount → ShownKey names mount routes key
  /-- The key of a method. -/
  | method {r : Route} : r.Survives mount routes → key = r.key → ShownKey names mount routes key
  /-- The name of a property. -/
  | property {r : Route} : r.Survives mount routes → key ∈ names r →
      ShownKey names mount routes key

namespace RouteForest

variable {names : Route → List String} {mount : Option String} {routes : List Route} {key : String}

/-- A key is the last of a path in the forest if and only if it is a segment of a route. -/
theorem exists_at_getLast?_iff :
    (∃ path tree, (ofRoutes mount routes).At path tree ∧ path.getLast? = some key) ↔
      ∃ r ∈ routes, key ∈ r.pathKeys mount := by
  constructor
  · rintro ⟨path, tree, hat, hlast⟩
    obtain ⟨-, r, hr, hprefix⟩ := (exists_at_ofRoutes_iff mount).1 ⟨tree, hat⟩
    exact ⟨r, hr, hprefix.subset (List.mem_of_getLast? hlast)⟩
  · rintro ⟨r, hr, hkey⟩
    obtain ⟨before, after, hsplit⟩ := List.append_of_mem hkey
    have hprefix : before ++ [key] <+: r.pathKeys mount := ⟨after, by simp [hsplit]⟩
    obtain ⟨tree, hat⟩ := (exists_at_ofRoutes_iff mount).2
      ⟨List.concat_ne_nil key before, r, hr, hprefix⟩
    exact ⟨_, tree, hat, List.getLast?_concat⟩

/-- The names that the forest of a list of routes shows are the keys of its declaration. -/
theorem mem_forestNames_ofRoutes_iff :
    key ∈ forestNames names (ofRoutes mount routes) ↔ ShownKey names mount routes key := by
  rw [mem_forestNames_iff]
  constructor
  · rintro ⟨path, tree, hat, hlast | hshown⟩
    · obtain ⟨r, hr, hkey⟩ := exists_at_getLast?_iff.1 ⟨path, tree, hat, hlast⟩
      exact .segment hr hkey
    · obtain ⟨method, r, hmethod, hname⟩ := mem_methodNames_iff.1 hshown
      obtain ⟨hsurvives, rfl⟩ := exists_at_mem_methods_iff.1 ⟨path, tree, hat, hmethod⟩
      exact hname.elim (.method hsurvives) (.property hsurvives)
  · have hmethods {r : Route} (hsurvives : r.Survives mount routes)
        (hname : key = r.key ∨ key ∈ names r) :
        ∃ path tree, (ofRoutes mount routes).At path tree ∧ ShownAt names key path tree := by
      obtain ⟨path, tree, hat, hmethod⟩ := exists_at_mem_methods_iff.2 ⟨hsurvives, rfl⟩
      exact ⟨path, tree, hat, .inr (mem_methodNames_iff.2 ⟨r.key, r, hmethod, hname⟩)⟩
    rintro (⟨hr, hkey⟩ | ⟨hsurvives, hname⟩ | ⟨hsurvives, hname⟩)
    · obtain ⟨path, tree, hat, hlast⟩ := exists_at_getLast?_iff.2 ⟨_, hr, hkey⟩
      exact ⟨path, tree, hat, .inl hlast⟩
    · exact hmethods hsurvives (.inl hname)
    · exact hmethods hsurvives (.inr hname)

/-! ## Strings in a declaration -/

/-- The strings between single quotes in the text are those of the keys that are no identifiers, and
one of them is broken if and only if a key holds a line break. -/
def QuotesKeys (IsKey : String → Prop) (text : String) : Prop :=
  ∃ quoted, Text.singleQuoted? text = some quoted ∧
    (∀ body, body ∈ quoted ↔ ∃ key, IsKey key ∧ PropertyKey.quotedBody? key = some body) ∧
    ((∃ body ∈ quoted, BreaksLine body) ↔ ∃ key, IsKey key ∧ BreaksLine key.toList)

/-- A text whose lexemes hold the quoted names of a forest quotes exactly the keys that are
shown. -/
theorem quotesKeys_of_exists_lexemes {text : String} {tokens : List Lexeme}
    (htokens : lexemes text.toList = some tokens)
    (hnames : tokens.filterMap Lexeme.singleQuoted? =
      (forestNames names (ofRoutes mount routes)).filterMap PropertyKey.quotedBody?) :
    QuotesKeys (ShownKey names mount routes) text := by
  have hquoted (body : List Char) : body ∈ tokens.filterMap Lexeme.singleQuoted? ↔
      ∃ key, ShownKey names mount routes key ∧ PropertyKey.quotedBody? key = some body := by
    rw [hnames, List.mem_filterMap]
    simp only [mem_forestNames_ofRoutes_iff]
  refine ⟨_, by rw [Text.singleQuoted?, htokens, Option.map_some], hquoted, ?_⟩
  constructor
  · rintro ⟨body, hbody, hbreaks⟩
    obtain ⟨key, hkey, hbodyOf⟩ := (hquoted body).1 hbody
    exact ⟨key, hkey, (PropertyKey.breaksLine_quotedBody?_iff hbodyOf).1 hbreaks⟩
  · rintro ⟨key, hkey, hbreaks⟩
    obtain ⟨body, hbodyOf⟩ := PropertyKey.exists_quotedBody?_of_breaksLine hbreaks
    exact ⟨body, (hquoted body).2 ⟨key, hkey, hbodyOf⟩,
      (PropertyKey.breaksLine_quotedBody?_iff hbodyOf).2 hbreaks⟩

/-- The strings between single quotes in both declarations are the keys that are no identifiers, and
a key with a line break, and nothing else, breaks one. -/
theorem quotedKeys_break_iff (mount : Option String) (routes : List Route) (level : Int) :
    (∀ text, (ofRoutes mount routes).contractType level = .ok text →
      QuotesKeys (ShownKey Route.descriptorNames mount routes) text) ∧
    ∀ text, (ofRoutes mount routes).clientType level = .ok text →
      QuotesKeys (ShownKey Route.signatureNames mount routes) text := by
  constructor
  · intro text h
    obtain ⟨tokens, -, -, htokens, -, -, hnames⟩ :=
      exists_lexemes_of_forestLines isWriterOf_descriptor h
    exact quotesKeys_of_exists_lexemes htokens hnames
  · intro text h
    obtain ⟨tokens, -, -, htokens, -, -, hnames⟩ :=
      exists_lexemes_of_forestLines isWriterOf_signature h
    exact quotesKeys_of_exists_lexemes htokens hnames

/-- A route with quotes and line breaks in a segment, in its method, and in two properties. -/
def brokenRoutes : List Route :=
  [⟨"x\r", "/a'\n/:b", none, none, false,
    ⟨none, none, some (.fields [("p\\\n", .unknown)] []), some (.fields [("'", .unknown)] [])⟩⟩]

/-- The strings of its contract type. -/
def brokenStrings : List (List Char) :=
  ["a\\'\n".toList, ":id".toList, "x\r".toList, "p\\\\\n".toList, "\\'".toList]

theorem quotedKeys_break_iff_brokenRoutes :
    ∃ text, (ofRoutes none brokenRoutes).contractType 1 = .ok text ∧
      Text.singleQuoted? text = some brokenStrings ∧
      QuotesKeys (ShownKey Route.descriptorNames none brokenRoutes) text := by
  obtain ⟨text, htext⟩ := Outcome.exists_of_isOk
    (show ((ofRoutes none brokenRoutes).contractType 1).isOk = true by decide +kernel)
  have hstrings : ((ofRoutes none brokenRoutes).contractType 1).map Text.singleQuoted? =
      .ok (some brokenStrings) := by decide +kernel
  rw [htext] at hstrings
  exact ⟨text, htext, Except.ok.inj hstrings,
    (quotedKeys_break_iff none brokenRoutes 1).1 text htext⟩

/-- A line feed in a segment stands in its string. -/
theorem exists_breaksLine_segment :
    ∃ text quoted,
      (ofRoutes none [Route.plain "GET" "/a\nb"]).contractType 1 = .ok text ∧
        Text.singleQuoted? text = some quoted ∧ ∃ body ∈ quoted, BreaksLine body :=
  ⟨lines ["  'a\nb': \x7b", "    get: \x7b return: any \x7d", "  \x7d"], ["a\nb".toList],
    by decide +kernel, by decide +kernel, "a\nb".toList, List.mem_singleton_self _, by decide⟩

end RouteForest
end TypedRoutes
