/-! # Descriptors

  The declarations of one Protocol Buffers schema file, as the schema compiler describes them.

  Only what a summary reads is kept. A field that may be unset is an `Option`: an unset name
  and an empty name are different descriptions, although both read as the empty name.
-/

namespace SchemaSummary

/-- A field declared in a message. -/
structure FieldDescriptor where
  name : Option String := none
  number : Option Int32 := none
  deriving Repr, BEq, DecidableEq, Inhabited

/-- A message declaration with the messages nested in it, in declaration order. -/
structure MessageDescriptor where
  name : Option String := none
  fields : List FieldDescriptor := []
  nested : List MessageDescriptor := []
  deriving Repr, BEq, Inhabited

/-- A method declared in a service; the types are references such as `.acme.v1.Request`. -/
structure MethodDescriptor where
  name : Option String := none
  inputType : Option String := none
  outputType : Option String := none
  deriving Repr, BEq, DecidableEq, Inhabited

/-- A service declaration. -/
structure ServiceDescriptor where
  name : Option String := none
  methods : List MethodDescriptor := []
  deriving Repr, BEq, DecidableEq, Inhabited

/-- The file-level options that bear on output names. -/
structure FileOptions where
  goPackage : Option String := none
  deriving Repr, BEq, DecidableEq, Inhabited

/-- One schema file. -/
structure FileDescriptor where
  name : Option String := none
  package : Option String := none
  messages : List MessageDescriptor := []
  services : List ServiceDescriptor := []
  options : Option FileOptions := none
  deriving Repr, BEq, Inhabited

/-! ## Reading unset fields -/

/-- The simple name of a field; unset reads as empty. -/
def FieldDescriptor.simpleName (f : FieldDescriptor) : String := f.name.getD ""

/-- The number of a field; unset reads as zero. -/
def FieldDescriptor.tag (f : FieldDescriptor) : Int32 := f.number.getD 0

/-- The simple name of a message; unset reads as empty. -/
def MessageDescriptor.simpleName (m : MessageDescriptor) : String := m.name.getD ""

/-- The simple name of a method; unset reads as empty. -/
def MethodDescriptor.simpleName (m : MethodDescriptor) : String := m.name.getD ""

/-- The simple name of a service; unset reads as empty. -/
def ServiceDescriptor.simpleName (s : ServiceDescriptor) : String := s.name.getD ""

/-- The name of a schema file, as given to the compiler; unset reads as empty. -/
def FileDescriptor.path (f : FileDescriptor) : String := f.name.getD ""

/-- The scope of the top-level declarations; unset reads as empty. -/
def FileDescriptor.scope (f : FileDescriptor) : String := f.package.getD ""

/-! ## Size of a declaration tree -/

mutual

/-- The number of messages in a declaration tree, its root included. -/
def MessageDescriptor.treeSize : MessageDescriptor → Nat
  | ⟨_, _, nested⟩ => 1 + MessageDescriptor.forestSize nested

/-- The number of messages in a list of declaration trees. -/
def MessageDescriptor.forestSize : List MessageDescriptor → Nat
  | [] => 0
  | m :: ms => m.treeSize + MessageDescriptor.forestSize ms

end

theorem MessageDescriptor.treeSize_eq (m : MessageDescriptor) :
    m.treeSize = 1 + forestSize m.nested := by
  cases m; simp [treeSize]

end SchemaSummary
