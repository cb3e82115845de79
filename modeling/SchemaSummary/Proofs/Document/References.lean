import SchemaSummary.Proofs.Document.QualifiedNames

/-! # References

  What the types of a method refer to.

  A message is referred to by a dot, the package and the simple names on the path to it. Its record
  is named by a different route: the loop over pending messages qualifies one simple name after the
  other on the way down. Both lead to the same name, for every package and at every depth, as long
  as no name on the path is empty. So the types of a method can be looked up among the messages.
-/

namespace SchemaSummary

/-- The reference to the message at a path in a package. -/
def absoluteReference (package : String) (path : List String) : String :=
  "." ++ dotted package path

/-- A reference is read as the qualified name behind its dot. -/
theorem typeReference_absoluteReference (package : String) (path : List String) :
    typeReference (absoluteReference package path) = dotted package path := by
  have hdot : (absoluteReference package path).toList = '.' :: (dotted package path).toList := by
    rw [absoluteReference, String.toList_append]
    rfl
  unfold typeReference
  rw [hdot]
  exact String.ofList_toList

/-- The record of a message stands where the message comes in the order of emission. -/
theorem exists_record_of_at? {scope : String} {messages : List MessageDescriptor} {q : Position}
    {p : Pending} (h : at? (topLevel scope messages) q = some p) :
    ∃ i : Nat, (emissionOrder messages)[i]? = some q ∧
      (flattenMessages scope messages)[i]? = some (recordOf p) := by
  have hmem : q ∈ emissionOrder messages := by
    rw [mem_emissionOrder_iff scope, h]
    rfl
  obtain ⟨i, hi⟩ := List.mem_iff_getElem?.mp hmem
  refine ⟨i, hi, ?_⟩
  have hrecords :=
    congrArg (fun records => records[i]?) (depthFirst_flattenMessages scope messages).records
  simp only [List.getElem?_map, hi, Option.map_some, h] at hrecords
  -- Both sides are wrapped twice, once as items of a list and once as what stands at a position.
  obtain ⟨record, hrecord, heq⟩ := Option.map_eq_some_iff.mp hrecords
  rw [hrecord, Option.some.inj heq]

/-- Services and their methods keep their places. -/
theorem exists_method_of_getElem? (scope : String) {services : List ServiceDescriptor} {j k : Nat}
    {s : ServiceDescriptor} {m : MethodDescriptor} (hs : services[j]? = some s)
    (hm : s.methods[k]? = some m) :
    ∃ service method, (collectServices scope services)[j]? = some service ∧
      service.methods[k]? = some method ∧
      method.inputType = typeReference (m.inputType.getD "") ∧
      method.outputType = typeReference (m.outputType.getD "") := by
  refine ⟨s.record scope, m.record (qualify scope s.simpleName), ?_, ?_, rfl, rfl⟩
  · rw [collectServices, List.getElem?_map, hs]
    rfl
  · rw [ServiceDescriptor.record, List.getElem?_map, hm]
    rfl

/-- **References to messages** are names of records: where a method, of whichever service, has the
    reference to a message as one of its types, that type is recorded under the very name that the
    record of the message has. -/
theorem reference_names_record (f : FileDescriptor) {q : Position} {p : Pending}
    (hp : at? (topLevel f.scope f.messages) q = some p)
    (hnames : ∀ n ∈ pathTo f.messages q, n ≠ "") :
    ∃ (i : Nat) (record : MessageRecord), (emissionOrder f.messages)[i]? = some q ∧
      (flattenMessages f.scope f.messages)[i]? = some record ∧ record = recordOf p ∧
      ∀ (scope : String) (services : List ServiceDescriptor) (j k : Nat) (s : ServiceDescriptor)
        (m : MethodDescriptor), services[j]? = some s → s.methods[k]? = some m →
        ∃ service method, (collectServices scope services)[j]? = some service ∧
          service.methods[k]? = some method ∧
          (m.inputType = some (absoluteReference f.scope (pathTo f.messages q)) →
            method.inputType = record.name) ∧
          (m.outputType = some (absoluteReference f.scope (pathTo f.messages q)) →
            method.outputType = record.name) := by
  obtain ⟨i, hi, hrecord⟩ := exists_record_of_at? hp
  -- The reference has this name by definition; the record has it by the way the loop came down.
  have hname : (recordOf p).name = dotted f.scope (pathTo f.messages q) := name_of_at? hnames hp
  refine ⟨i, recordOf p, hi, hrecord, rfl, ?_⟩
  intro scope services j k s m hs hm
  obtain ⟨service, method, hservice, hmethod, hinput, houtput⟩ :=
    exists_method_of_getElem? scope hs hm
  refine ⟨service, method, hservice, hmethod, ?_, ?_⟩
  · intro htype
    rw [hinput, htype, Option.getD_some, typeReference_absoluteReference, hname]
  · intro htype
    rw [houtput, htype, Option.getD_some, typeReference_absoluteReference, hname]

/-! ### A message beside others without names -/

namespace Unnamed

def page : MessageDescriptor where
  name := some "Page"
  nested := [{}, { name := some "Line" }]

def book : MessageDescriptor where
  name := some "Book"
  nested := [page, {}]

/-- No name on the path to the message `Line` is empty, but there are empty names elsewhere. -/
def library : FileDescriptor where
  package := some "acme.v1"
  messages := [{}, book]
  services := [{ methods := [{ outputType := some ".acme.v1.Book.Page.Line" }] }]

end Unnamed

open Unnamed in
theorem reference_names_line :
    at? (topLevel library.scope library.messages) [1, 0, 1] =
        some ("acme.v1.Book.Page.Line", { name := some "Line" }) ∧
      (∀ n ∈ pathTo library.messages [1, 0, 1], n ≠ "") ∧
      ∃ record ∈ library.document.messages, ∃ service ∈ library.document.services,
        ∃ method ∈ service.methods, method.outputType = record.name := by
  have hp : at? (topLevel library.scope library.messages) [1, 0, 1] =
      some ("acme.v1.Book.Page.Line", { name := some "Line" }) := rfl
  have hnames : ∀ n ∈ pathTo library.messages [1, 0, 1], n ≠ "" := by decide
  obtain ⟨i, record, -, hi, -, htypes⟩ := reference_names_record library hp hnames
  obtain ⟨service, method, hservice, hmethod, -, houtput⟩ :=
    htypes library.scope library.services 0 0 _ _ rfl rfl
  exact ⟨hp, hnames, record, List.mem_of_getElem? hi, service, List.mem_of_getElem? hservice,
    method, List.mem_of_getElem? hmethod, houtput rfl⟩

end SchemaSummary
