import SchemaSummary.Document.Basic

/-! # Counts

  How many messages, fields, services and methods a document has, and the sums of such counts
  over several documents.
-/

namespace SchemaSummary

/-- Counts of records. -/
structure Stats where
  messages : Nat := 0
  fields : Nat := 0
  services : Nat := 0
  methods : Nat := 0
  deriving Repr, BEq, DecidableEq, Inhabited

namespace Stats

/-- The counts of nothing. -/
def zero : Stats := {}

/-- The componentwise sum. -/
def add (a b : Stats) : Stats where
  messages := a.messages + b.messages
  fields := a.fields + b.fields
  services := a.services + b.services
  methods := a.methods + b.methods

@[simp] theorem zero_add (a : Stats) : zero.add a = a := by simp [zero, add]

@[simp] theorem add_zero (a : Stats) : a.add zero = a := by simp [zero, add]

/-- The counts of several documents together. -/
def sum (stats : List Stats) : Stats := stats.foldl add zero

/-- The wording of log lines and reports. -/
def text (s : Stats) : String :=
  toString s.messages ++ " messages, " ++ toString s.fields ++ " fields, " ++
    toString s.services ++ " services, " ++ toString s.methods ++ " methods"

end Stats

/-- The counts of a document. -/
def Document.stats (d : Document) : Stats where
  messages := d.messages.length
  fields := (d.messages.flatMap fun m => m.fields).length
  services := d.services.length
  methods := (d.services.flatMap fun s => s.methods).length

end SchemaSummary
