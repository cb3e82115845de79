/-! # Qualified names

  A declaration is named by its scope and its simple name with a dot between them; the empty
  scope adds nothing, not even the dot. References to types are written with a leading dot,
  which a qualified name does not have.
-/

namespace SchemaSummary

/-- The qualified name of `name` declared in `scope`. -/
def qualify (scope name : String) : String :=
  if scope.isEmpty then name else scope ++ "." ++ name

@[simp] theorem qualify_empty (name : String) : qualify "" name = name := rfl

/-- The qualified name that a type reference stands for: one leading dot is dropped. -/
def typeReference (reference : String) : String :=
  match reference.toList with
  | '.' :: name => String.ofList name
  | _ => reference

end SchemaSummary
