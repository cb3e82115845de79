import SchemaSummary.Schema.Descriptor
import SchemaSummary.Schema.Name
import SchemaSummary.Document.Basic

/-! # The document of a schema file

  `FileDescriptor.document` summarises one schema file.

  Messages are flattened depth first, one top-level declaration after the other. `drain` does
  it with a list of pending declarations, so that no nesting is too deep for it: the head is
  emitted and the messages nested in it are pushed in declaration order, each in front of the
  ones before it. So nested messages come out in reverse declaration order:

      message Outer { message A {} message B {} }   gives   Outer, Outer.B, Outer.A

  `MessageDescriptor.walk` says the same by recursion on the declaration tree.
-/

namespace SchemaSummary

/-! ## Records of single declarations -/

/-- The record of a field. -/
def FieldDescriptor.record (f : FieldDescriptor) : FieldRecord := ⟨f.simpleName, f.tag⟩

/-- The fields of a message ascending by number; equal numbers keep their declaration order. -/
def MessageDescriptor.fieldRecords (m : MessageDescriptor) : List FieldRecord :=
  (m.fields.map FieldDescriptor.record).mergeSort fun f g => f.number ≤ g.number

/-- The record of a message, without the messages nested in it. -/
def MessageDescriptor.record (full : String) (m : MessageDescriptor) : MessageRecord :=
  ⟨full, m.fieldRecords⟩

/-- The record of a method of the service named `service`. -/
def MethodDescriptor.record (service : String) (m : MethodDescriptor) : MethodRecord :=
  ⟨qualify service m.simpleName, typeReference (m.inputType.getD ""),
    typeReference (m.outputType.getD "")⟩

/-- The record of a service declared in `scope`. -/
def ServiceDescriptor.record (scope : String) (s : ServiceDescriptor) : ServiceRecord :=
  let full := qualify scope s.simpleName
  ⟨full, s.methods.map (MethodDescriptor.record full)⟩

/-! ## Flattening -/

/-- A message together with its qualified name. -/
abbrev Pending := String × MessageDescriptor

/-- The number of messages still to be emitted. -/
def pendingSize : List Pending → Nat
  | [] => 0
  | p :: ps => p.2.treeSize + pendingSize ps

@[simp] theorem pendingSize_append (ps qs : List Pending) :
    pendingSize (ps ++ qs) = pendingSize ps + pendingSize qs := by
  induction ps with
  | nil => simp [pendingSize]
  | cons p ps ih => simp [pendingSize, ih, Nat.add_assoc]

@[simp] theorem pendingSize_reverse (ps : List Pending) :
    pendingSize ps.reverse = pendingSize ps := by
  induction ps with
  | nil => rfl
  | cons p ps ih => simp [pendingSize, ih, Nat.add_comm]

/-- The messages nested in a message, with their qualified names, in declaration order. -/
def MessageDescriptor.children (full : String) (m : MessageDescriptor) : List Pending :=
  m.nested.map fun c => (qualify full c.simpleName, c)

@[simp] theorem pendingSize_children (full : String) (m : MessageDescriptor) :
    pendingSize (m.children full) = MessageDescriptor.forestSize m.nested := by
  rw [MessageDescriptor.children]
  induction m.nested with
  | nil => rfl
  | cons c cs ih => simp [pendingSize, MessageDescriptor.forestSize, ih]

/-- The records of all pending messages and of everything nested in them. -/
def drain : List Pending → List MessageRecord
  | [] => []
  -- Reversed, so that the message declared last is on top.
  | (full, m) :: rest => m.record full :: drain ((m.children full).reverse ++ rest)
termination_by pending => pendingSize pending
decreasing_by
  simp only [pendingSize_append, pendingSize_reverse, pendingSize_children, pendingSize,
    MessageDescriptor.treeSize_eq]
  omega

/-- The records of top-level messages and of everything nested in them. -/
def flattenMessages (scope : String) (messages : List MessageDescriptor) : List MessageRecord :=
  messages.flatMap fun m => drain [(qualify scope m.simpleName, m)]

mutual

/-- The records of one declaration tree: the root, then the nested trees from last to first. -/
def MessageDescriptor.walk (full : String) : MessageDescriptor → List MessageRecord
  | ⟨name, fields, nested⟩ =>
    MessageDescriptor.record full ⟨name, fields, nested⟩ :: MessageDescriptor.walkNested full nested

/-- The records of the trees nested in the message named `full`, from last to first. -/
def MessageDescriptor.walkNested (full : String) : List MessageDescriptor → List MessageRecord
  | [] => []
  | c :: cs => walkNested full cs ++ c.walk (qualify full c.simpleName)

end

/-! ## Services and whole files -/

/-- The records of services declared in `scope`. -/
def collectServices (scope : String) (services : List ServiceDescriptor) : List ServiceRecord :=
  services.map (ServiceDescriptor.record scope)

/-- The summary of a schema file. -/
def FileDescriptor.document (f : FileDescriptor) : Document where
  messages := flattenMessages f.scope f.messages
  services := collectServices f.scope f.services

end SchemaSummary
