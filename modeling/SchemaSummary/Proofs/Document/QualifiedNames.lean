import SchemaSummary.Proofs.Document.Flattening

/-! # Qualified names

  What the names in a document are, and that no two of them are the same.

  The path of an element is the list of simple names from the file down to it. A qualified name is
  such a path joined by dots, with the package in front. As long as simple names are not empty and
  have no dots,

    * the loop over pending messages arrives at the path of every message,
    * the path can be read off the qualified name, whatever the package is,
    * so names that are distinct in every scope are distinct in the whole document.
-/

namespace SchemaSummary

/-! ## Dotted paths -/

/-- The simple names of a path joined by dots, with the scope in front unless it is empty. -/
def dotted (scope : String) (path : List String) : String :=
  ".".intercalate (if scope = "" then path else scope :: path)

theorem dotted_singleton (scope name : String) : dotted scope [name] = qualify scope name := by
  by_cases h : scope = ""
  · simp [dotted, qualify, h]
  · simp [dotted, qualify, h, String.intercalate_cons_cons]

theorem intercalate_ne_empty {sep first : String} (h : first ≠ "") (rest : List String) :
    sep.intercalate (first :: rest) ≠ "" := by
  cases rest with
  | nil => simpa using h
  | cons next rest => simp [String.intercalate_cons_cons, h]

/-- A simple name declared at a path stands at the end of it. -/
theorem qualify_dotted {scope : String} {path : List String} (hpath : path ≠ [])
    (hnames : ∀ n ∈ path, n ≠ "") (name : String) :
    qualify (dotted scope path) name = dotted scope (path ++ [name]) := by
  obtain ⟨first, path, rfl⟩ := List.exists_cons_of_ne_nil hpath
  have hfirst : first ≠ "" := hnames first List.mem_cons_self
  by_cases h : scope = ""
  · have hne : dotted scope (first :: path) ≠ "" := by
      rw [dotted, if_pos h]
      exact intercalate_ne_empty hfirst path
    rw [qualify, if_neg (by simpa using hne), dotted, dotted, if_pos h, if_pos h,
      String.intercalate_append_of_ne_nil hpath (List.cons_ne_nil name []),
      String.intercalate_singleton]
  · have hne : dotted scope (first :: path) ≠ "" := by
      rw [dotted, if_neg h]
      exact intercalate_ne_empty h (first :: path)
    rw [qualify, if_neg (by simpa using hne), dotted, dotted, if_neg h, if_neg h,
      ← List.cons_append, String.intercalate_append_of_ne_nil (by simp)
        (List.cons_ne_nil name []), String.intercalate_singleton]

/-- Joined names can be taken apart at the dots. -/
theorem intercalate_dot_inj {path path' : List String} (hpath : path ≠ []) (hpath' : path' ≠ [])
    (hnames : ∀ n ∈ path, '.' ∉ n.toList) (hnames' : ∀ n ∈ path', '.' ∉ n.toList)
    (h : ".".intercalate path = ".".intercalate path') : path = path' := by
  have hsplit : ∀ {path : List String}, path ≠ [] → (∀ n ∈ path, '.' ∉ n.toList) →
      List.splitOn '.' (".".intercalate path).toList = path.map String.toList := by
    intro path hpath hnames
    rw [String.toList_intercalate]
    exact List.splitOn_intercalate '.' (by simpa using hnames) (by simpa using hpath)
  apply List.map_injective_iff.mpr fun _ _ => String.toList_injective
  rw [← hsplit hpath hnames, ← hsplit hpath' hnames', h]

/-- **Dotted paths** in one scope are different if the paths are, whatever their lengths. -/
theorem dotted_inj {scope : String} {path path' : List String} (hpath : path ≠ [])
    (hpath' : path' ≠ []) (hnames : ∀ n ∈ path, '.' ∉ n.toList)
    (hnames' : ∀ n ∈ path', '.' ∉ n.toList) (h : dotted scope path = dotted scope path') :
    path = path' := by
  apply intercalate_dot_inj hpath hpath' hnames hnames'
  by_cases hscope : scope = ""
  · simpa [dotted, hscope] using h
  · -- The scope may have dots of its own, but both names begin with it.
    simpa [dotted, hscope, String.intercalate_cons_of_ne_nil, hpath, hpath', String.append_assoc]
      using h

/-! ## Names in scopes -/

/-- The simple names that are declared in one scope. -/
structure OneScope (names : List String) : Prop where
  nonempty : ∀ n ∈ names, n ≠ ""
  dotless : ∀ n ∈ names, '.' ∉ n.toList
  distinct : names.Nodup

/-- A message whose nested messages have distinct simple names, in every scope inside it. -/
inductive MessageDescriptor.WellNamed : MessageDescriptor → Prop
  | intro {m : MessageDescriptor} (scope : OneScope (m.nested.map simpleName))
      (nested : ∀ c ∈ m.nested, c.WellNamed) : m.WellNamed

/-- A schema file with distinct simple names in every scope. Top-level messages and services share
    one scope. -/
structure FileDescriptor.WellNamed (f : FileDescriptor) : Prop where
  topLevel : OneScope
    (f.messages.map MessageDescriptor.simpleName ++ f.services.map ServiceDescriptor.simpleName)
  messages : ∀ m ∈ f.messages, m.WellNamed
  methods : ∀ s ∈ f.services, OneScope (s.methods.map MethodDescriptor.simpleName)

theorem OneScope.left {names names' : List String} (h : OneScope (names ++ names')) :
    OneScope names where
  nonempty n hn := h.nonempty n (List.mem_append_left _ hn)
  dotless n hn := h.dotless n (List.mem_append_left _ hn)
  distinct := (List.nodup_append.mp h.distinct).1

theorem OneScope.right {names names' : List String} (h : OneScope (names ++ names')) :
    OneScope names' where
  nonempty n hn := h.nonempty n (List.mem_append_right _ hn)
  dotless n hn := h.dotless n (List.mem_append_right _ hn)
  distinct := (List.nodup_append.mp h.distinct).2.1

/-- Messages with distinct simple names, in their own scope and in every scope inside them. -/
structure WellNamedForest (messages : List MessageDescriptor) : Prop where
  scope : OneScope (messages.map MessageDescriptor.simpleName)
  messages : ∀ m ∈ messages, m.WellNamed

theorem FileDescriptor.WellNamed.forest {f : FileDescriptor} (h : f.WellNamed) :
    WellNamedForest f.messages := ⟨h.topLevel.left, h.messages⟩

theorem MessageDescriptor.WellNamed.forest {m : MessageDescriptor} (h : m.WellNamed) :
    WellNamedForest m.nested := by
  cases h with
  | intro scope nested => exact ⟨scope, nested⟩

/-! ## Paths of messages -/

/-- The simple names on the way down to a position in a forest. -/
def pathTo : List MessageDescriptor → Position → List String
  | _, [] => []
  | messages, i :: q =>
    match messages[i]? with
    | none => []
    | some m => m.simpleName :: pathTo m.nested q

theorem pathTo_cons {messages : List MessageDescriptor} {i : Nat} {m : MessageDescriptor}
    (h : messages[i]? = some m) (q : Position) :
    pathTo messages (i :: q) = m.simpleName :: pathTo m.nested q := by
  rw [pathTo, h]

/-- Below a message a position is looked up among the messages nested in it. -/
theorem below?_cons (full : String) (m : MessageDescriptor) (i : Nat) (q : Position) :
    below? (full, m) (i :: q) = at? (topLevel full m.nested) (i :: q) := rfl

/-- A position in a forest begins with the index of a tree and goes on below its root. -/
theorem at?_cons {scope : String} {messages : List MessageDescriptor} {i : Nat} {q : Position}
    {p : Pending} (h : at? (topLevel scope messages) (i :: q) = some p) :
    ∃ m, messages[i]? = some m ∧ below? (qualify scope m.simpleName, m) q = some p := by
  rw [at?, topLevel, List.getElem?_map] at h
  cases hm : messages[i]? with
  | none =>
    rw [hm] at h
    cases h
  | some m =>
    rw [hm] at h
    exact ⟨m, rfl, h⟩

section Forests

variable {messages : List MessageDescriptor}

/-- The message at a position below another one is named by the path between them. -/
theorem name_of_below? {q : Position} : ∀ {path : List String} {m : MessageDescriptor}
    {scope : String} {p : Pending}, path ≠ [] → (∀ n ∈ path ++ pathTo m.nested q, n ≠ "") →
    below? (dotted scope path, m) q = some p → p.1 = dotted scope (path ++ pathTo m.nested q) := by
  induction q with
  | nil =>
    intro path m scope p _ _ hp
    cases hp
    simp [pathTo]
  | cons i q ih =>
    intro path m scope p hpath hnames hp
    rw [below?_cons] at hp
    obtain ⟨c, hc, hp⟩ := at?_cons hp
    -- The name of the nested message moves from the way ahead to the way behind.
    have hmove : path ++ pathTo m.nested (i :: q) =
        (path ++ [c.simpleName]) ++ pathTo c.nested q := by
      rw [pathTo_cons hc]
      simp
    rw [hmove] at hnames ⊢
    rw [qualify_dotted hpath fun n hn => hnames n (by simp [hn])] at hp
    exact ih (by simp) hnames hp

/-- The message at a position in a forest is named by the path to it, if no name on the path is
    empty. -/
theorem name_of_at? {scope : String} {q : Position} {p : Pending}
    (hnames : ∀ n ∈ pathTo messages q, n ≠ "") (h : at? (topLevel scope messages) q = some p) :
    p.1 = dotted scope (pathTo messages q) := by
  cases q with
  | nil => cases h
  | cons i q =>
    obtain ⟨m, hm, hp⟩ := at?_cons h
    rw [pathTo_cons hm] at hnames ⊢
    rw [← dotted_singleton] at hp
    exact name_of_below? (List.cons_ne_nil m.simpleName []) hnames hp

/-- The path to a message is not empty. -/
theorem pathTo_ne_nil {scope : String} {q : Position} {p : Pending}
    (h : at? (topLevel scope messages) q = some p) : pathTo messages q ≠ [] := by
  cases q with
  | nil => cases h
  | cons i q =>
    obtain ⟨m, hm, -⟩ := at?_cons h
    rw [pathTo_cons hm]
    exact List.cons_ne_nil _ _

/-- The names on a path are simple. -/
theorem simple_of_mem_pathTo {q : Position} : ∀ {messages : List MessageDescriptor},
    WellNamedForest messages → ∀ n ∈ pathTo messages q, n ≠ "" ∧ '.' ∉ n.toList := by
  induction q with
  | nil =>
    intro messages _ n hn
    cases hn
  | cons i q ih =>
    intro messages hforest n hn
    cases hm : messages[i]? with
    | none =>
      rw [pathTo, hm] at hn
      cases hn
    | some m =>
      have hmem : m ∈ messages := List.mem_of_getElem? hm
      have hname : m.simpleName ∈ messages.map MessageDescriptor.simpleName :=
        List.mem_map_of_mem hmem
      rw [pathTo_cons hm] at hn
      rcases List.mem_cons.mp hn with rfl | hn
      · exact ⟨hforest.scope.nonempty _ hname, hforest.scope.dotless _ hname⟩
      · exact ih (hforest.messages m hmem).forest n hn

/-- Simple names tell the trees of a forest apart. -/
theorem index_eq_of_simpleName {i j : Nat} {m m' : MessageDescriptor}
    (hforest : WellNamedForest messages) (hi : messages[i]? = some m) (hj : messages[j]? = some m')
    (hname : m.simpleName = m'.simpleName) : i = j := by
  have hlt : i < (messages.map MessageDescriptor.simpleName).length := by
    rw [List.length_map]
    exact (List.getElem?_eq_some_iff.mp hi).1
  rw [← List.getElem?_inj hlt hforest.scope.distinct, List.getElem?_map, List.getElem?_map, hi, hj,
    Option.map_some, Option.map_some, hname]

/-- Different messages have different paths. -/
theorem position_eq_of_pathTo {q : Position} : ∀ {r : Position} {messages : List MessageDescriptor}
    {scope : String} {p p' : Pending}, WellNamedForest messages →
    at? (topLevel scope messages) q = some p → at? (topLevel scope messages) r = some p' →
    pathTo messages q = pathTo messages r → q = r := by
  induction q with
  | nil =>
    intro r messages scope p p' _ hq
    cases hq
  | cons i q ih =>
    intro r messages scope p p' hforest hq hr heq
    obtain ⟨j, r, rfl⟩ : ∃ j r', r = j :: r' := by
      cases r with
      | nil => cases hr
      | cons j r => exact ⟨j, r, rfl⟩
    obtain ⟨m, hm, hq⟩ := at?_cons hq
    obtain ⟨m', hm', hr⟩ := at?_cons hr
    rw [pathTo_cons hm, pathTo_cons hm', List.cons.injEq] at heq
    obtain rfl := index_eq_of_simpleName hforest hm hm' heq.1
    obtain rfl := Option.some.inj (hm.symm.trans hm')
    have hnested := (hforest.messages m (List.mem_of_getElem? hm)).forest
    -- What is left of both positions lies below the same message.
    congr 1
    cases q with
    | nil =>
      cases r with
      | nil => rfl
      | cons k r => exact absurd heq.2.symm (pathTo_ne_nil hr)
    | cons l q =>
      cases r with
      | nil => exact absurd heq.2 (pathTo_ne_nil hq)
      | cons k r => exact ih hnested hq hr heq.2

end Forests

/-! ## The names in a document -/

/-- The names of a service and of its methods. -/
def ServiceRecord.names (s : ServiceRecord) : List String :=
  s.name :: s.methods.map MethodRecord.name

/-- All names in a document: those of messages, of services and of methods. -/
def Document.names (d : Document) : List String :=
  d.messages.map MessageRecord.name ++ d.services.flatMap ServiceRecord.names

/-- The paths of a service and of its methods. -/
def ServiceDescriptor.elementPaths (s : ServiceDescriptor) : List (List String) :=
  [s.simpleName] :: s.methods.map fun m => [s.simpleName, m.simpleName]

/-- The paths of all messages, services and methods of a schema file. -/
def FileDescriptor.elementPaths (f : FileDescriptor) : List (List String) :=
  (emissionOrder f.messages).map (pathTo f.messages) ++
    f.services.flatMap ServiceDescriptor.elementPaths

section Documents

variable {f : FileDescriptor}

theorem exists_of_mem_emissionOrder (scope : String) {messages : List MessageDescriptor}
    {q : Position} (h : q ∈ emissionOrder messages) :
    ∃ p, at? (topLevel scope messages) q = some p :=
  Option.isSome_iff_exists.mp ((mem_emissionOrder_iff scope messages q).mp h)

/-- The records of messages are named by the paths to the messages. -/
theorem map_name_flattenMessages (scope : String) {messages : List MessageDescriptor}
    (h : WellNamedForest messages) :
    (flattenMessages scope messages).map MessageRecord.name =
      (emissionOrder messages).map fun q => dotted scope (pathTo messages q) := by
  have hrecords := (depthFirst_flattenMessages scope messages).records
  have hnames := congrArg (List.map (Option.map MessageRecord.name)) hrecords
  rw [List.map_map, List.map_map] at hnames
  apply List.map_injective_iff.mpr fun _ _ => Option.some.inj
  rw [List.map_map, List.map_map]
  refine hnames.trans (List.map_congr_left ?_)
  intro q hq
  obtain ⟨p, hp⟩ := exists_of_mem_emissionOrder scope hq
  have hname := name_of_at? (fun n hn => (simple_of_mem_pathTo h n hn).1) hp
  simp [hp, recordOf, MessageDescriptor.record, hname]

/-- The records of a service and of its methods are named by the paths to these. -/
theorem names_record (scope : String) {s : ServiceDescriptor} (h : s.simpleName ≠ "") :
    (s.record scope).names = s.elementPaths.map (dotted scope) := by
  have hmethods : (s.record scope).methods.map MethodRecord.name =
      s.methods.map fun m => dotted scope [s.simpleName, m.simpleName] := by
    rw [ServiceDescriptor.record, List.map_map]
    apply List.map_congr_left
    intro m _
    show qualify (qualify scope s.simpleName) m.simpleName = _
    rw [← dotted_singleton scope s.simpleName, qualify_dotted (by simp) (by simpa using h)]
    rfl
  rw [ServiceRecord.names, hmethods, ServiceDescriptor.elementPaths, List.map_cons, List.map_map,
    dotted_singleton]
  rfl

theorem names_collectServices (scope : String) {services : List ServiceDescriptor}
    (h : ∀ s ∈ services, s.simpleName ≠ "") :
    (collectServices scope services).map ServiceRecord.names =
      services.map fun s => s.elementPaths.map (dotted scope) := by
  rw [collectServices, List.map_map]
  exact List.map_congr_left fun s hs => names_record scope (h s hs)

/-- The names in a document are the dotted paths of what the schema file declares. -/
theorem names_document (h : f.WellNamed) :
    f.document.names = f.elementPaths.map (dotted f.scope) := by
  have hservices : ∀ s ∈ f.services, s.simpleName ≠ "" := fun s hs =>
    h.topLevel.right.nonempty _ (List.mem_map_of_mem hs)
  rw [Document.names, FileDescriptor.elementPaths, List.map_append, List.map_map,
    List.map_flatMap, List.flatMap_def (l := f.services)]
  rw [← names_collectServices f.scope hservices, ← List.flatMap_def]
  congr 1
  exact map_name_flattenMessages f.scope h.forest

/-- Messages have different paths. -/
theorem nodup_map_pathTo {messages : List MessageDescriptor} (h : WellNamedForest messages) :
    ((emissionOrder messages).map (pathTo messages)).Nodup := by
  apply (depthFirst_flattenMessages "" messages).nodup.map_on
  intro q hq r hr heq
  obtain ⟨p, hp⟩ := exists_of_mem_emissionOrder "" hq
  obtain ⟨p', hp'⟩ := exists_of_mem_emissionOrder "" hr
  exact position_eq_of_pathTo h hp hp' heq

/-- The path of a service or method begins with the name of the service. -/
theorem head?_of_mem_elementPaths {s : ServiceDescriptor} {path : List String}
    (h : path ∈ s.elementPaths) : path.head? = some s.simpleName := by
  rcases List.mem_cons.mp h with rfl | h
  · rfl
  · obtain ⟨m, -, rfl⟩ := List.mem_map.mp h
    rfl

/-- The path of a message begins with the name of a top-level message. -/
theorem head?_pathTo {scope : String} {messages : List MessageDescriptor} {q : Position}
    {p : Pending} (h : at? (topLevel scope messages) q = some p) :
    ∃ m ∈ messages, (pathTo messages q).head? = some m.simpleName := by
  cases q with
  | nil => cases h
  | cons i q =>
    obtain ⟨m, hm, -⟩ := at?_cons h
    rw [pathTo_cons hm]
    exact ⟨m, List.mem_of_getElem? hm, rfl⟩

/-- Services and methods have different paths. -/
theorem nodup_flatMap_elementPaths (h : f.WellNamed) :
    (f.services.flatMap ServiceDescriptor.elementPaths).Nodup := by
  rw [List.nodup_flatMap]
  constructor
  · intro s hs
    have hmethods : (s.methods.map fun m => [s.simpleName, m.simpleName]).Nodup := by
      have hdistinct := (h.methods s hs).distinct
      rw [List.Nodup, List.pairwise_map] at hdistinct ⊢
      exact hdistinct.imp fun hne heq => hne (by simpa using heq)
    rw [ServiceDescriptor.elementPaths, List.nodup_cons]
    exact ⟨by simp, hmethods⟩
  · have hdistinct := h.topLevel.right.distinct
    rw [List.Nodup, List.pairwise_map] at hdistinct
    refine hdistinct.imp ?_
    intro s s' hne path hs hs'
    have hheads := (head?_of_mem_elementPaths hs).symm.trans (head?_of_mem_elementPaths hs')
    exact hne (Option.some.inj hheads)

/-- All elements of a schema file have different paths. -/
theorem nodup_elementPaths (h : f.WellNamed) : f.elementPaths.Nodup := by
  refine List.nodup_append.mpr ⟨nodup_map_pathTo h.forest, nodup_flatMap_elementPaths h, ?_⟩
  intro path hpath path' hpath' heq
  obtain ⟨q, hq, rfl⟩ := List.mem_map.mp hpath
  obtain ⟨s, hs, hpath'⟩ := List.mem_flatMap.mp hpath'
  obtain ⟨p, hp⟩ := exists_of_mem_emissionOrder f.scope hq
  obtain ⟨m, hm, hhead⟩ := head?_pathTo hp
  rw [heq, head?_of_mem_elementPaths hpath'] at hhead
  -- Messages and services share the top-level scope, so their names are different.
  exact (List.nodup_append.mp h.topLevel.distinct).2.2 m.simpleName (List.mem_map_of_mem hm)
    s.simpleName (List.mem_map_of_mem hs) (Option.some.inj hhead).symm

/-- The paths of elements are not empty, and their names have no dots. -/
theorem simple_of_mem_elementPaths (h : f.WellNamed) {path : List String}
    (hpath : path ∈ f.elementPaths) : path ≠ [] ∧ ∀ n ∈ path, '.' ∉ n.toList := by
  rcases List.mem_append.mp hpath with hpath | hpath
  · obtain ⟨q, hq, rfl⟩ := List.mem_map.mp hpath
    obtain ⟨p, hp⟩ := exists_of_mem_emissionOrder f.scope hq
    exact ⟨pathTo_ne_nil hp, fun n hn => (simple_of_mem_pathTo h.forest n hn).2⟩
  · obtain ⟨s, hs, hpath⟩ := List.mem_flatMap.mp hpath
    have hservice := h.topLevel.right.dotless _ (List.mem_map_of_mem hs)
    rcases List.mem_cons.mp hpath with rfl | hpath
    · exact ⟨by simp, by simpa using hservice⟩
    · obtain ⟨m, hm, rfl⟩ := List.mem_map.mp hpath
      have hmethod := (h.methods s hs).dotless _ (List.mem_map_of_mem hm)
      exact ⟨by simp, by simpa using ⟨hservice, hmethod⟩⟩

/-- **Names in a document** are pairwise different if simple names are distinct in every scope,
    and each of them is the dotted path of the message, service or method it stands for. -/
theorem document_names_distinct (h : f.WellNamed) :
    f.document.names.Nodup ∧
    DepthFirst f.scope f.messages f.document.messages (emissionOrder f.messages) ∧
    f.document.messages.map MessageRecord.name =
      (emissionOrder f.messages).map (fun q => dotted f.scope (pathTo f.messages q)) ∧
    f.document.services.map ServiceRecord.names =
      f.services.map fun s => dotted f.scope [s.simpleName] ::
        s.methods.map fun m => dotted f.scope [s.simpleName, m.simpleName] := by
  have hservices : ∀ s ∈ f.services, s.simpleName ≠ "" := fun s hs =>
    h.topLevel.right.nonempty _ (List.mem_map_of_mem hs)
  refine ⟨?_, depthFirst_flattenMessages f.scope f.messages,
    map_name_flattenMessages f.scope h.forest, ?_⟩
  · rw [names_document h]
    apply (nodup_elementPaths h).map_on
    intro path hpath path' hpath' heq
    obtain ⟨hne, hnames⟩ := simple_of_mem_elementPaths h hpath
    obtain ⟨hne', hnames'⟩ := simple_of_mem_elementPaths h hpath'
    exact dotted_inj hne hne' hnames hnames' heq
  · refine (names_collectServices f.scope hservices).trans (List.map_congr_left ?_)
    intro s _
    simp [ServiceDescriptor.elementPaths]

end Documents

/-! ### A schema file with names that recur -/

namespace Recurring

def page : MessageDescriptor where
  name := some "Page"
  nested := [{ name := some "Book" }]

def book : MessageDescriptor where
  name := some "Book"
  nested := [{ name := some "Find" }, page]

/-- One simple name stands in several scopes, but in none of them twice. -/
def library : FileDescriptor where
  package := some "acme.v1"
  messages := [book, { name := some "Page" }]
  services := [{ name := some "Search"
                 methods := [{ name := some "Find" }, { name := some "Book" }] }]

theorem wellNamed_library : library.WellNamed := by
  have hleaf : ∀ name, MessageDescriptor.WellNamed { name := some name } := fun name =>
    .intro ⟨by simp, by simp, by simp⟩ (by simp)
  have hpage : page.WellNamed :=
    .intro ⟨by decide, by decide, by decide⟩ (by simpa [page] using hleaf "Book")
  have hbook : book.WellNamed :=
    .intro ⟨by decide, by decide, by decide⟩ (by simpa [book] using ⟨hleaf "Find", hpage⟩)
  refine ⟨⟨by decide, by decide, by decide⟩, ?_, ?_⟩
  · simpa [library] using ⟨hbook, hleaf "Page"⟩
  · simpa [library] using ⟨by decide, by decide, by decide⟩

end Recurring

open Recurring in
theorem document_names_library : library.WellNamed ∧ library.document.names.Nodup ∧
    library.document.messages.map MessageRecord.name =
      ["acme.v1.Book", "acme.v1.Book.Page", "acme.v1.Book.Page.Book", "acme.v1.Book.Find",
        "acme.v1.Page"] := by
  obtain ⟨hnodup, -, hmessages, -⟩ := document_names_distinct wellNamed_library
  refine ⟨wellNamed_library, hnodup, hmessages.trans ?_⟩
  decide

end SchemaSummary
