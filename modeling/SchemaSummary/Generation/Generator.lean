import SchemaSummary.Document.OfSchema
import SchemaSummary.Document.Stats
import SchemaSummary.Generation.Encoder
import SchemaSummary.Generation.Name
import SchemaSummary.Generation.Selection

/-! # Generation

  One file is generated for every selected schema file, in the order of selection. The first
  error ends the run and leaves nothing of it.

  `Generator.run` gives the files together with the counts of their documents; `generate` is a
  run as the parameter of the request configures it, with YAML as output.
-/

namespace SchemaSummary

/-- A configuration together with an encoder. -/
structure Generator where
  config : Config
  encoder : Encoder

namespace Generator

/-- The generator of YAML files. -/
def yaml (config : Config) : Generator := ⟨config, .yaml⟩

/-- The file for one schema file, and the counts of its document. An output name that cannot be
    formed is reported before a document that cannot be encoded. -/
def generateFile (g : Generator) (f : FileDescriptor) : Except Error (GeneratedFile × Stats) := do
  let stem ← g.config.outputStem f
  let file ← g.encoder.file f.path stem f.document
  .ok (file, f.document.stats)

/-- The files for all selected schema files, and the counts of all their documents. -/
def run (g : Generator) (q : Request) : Except Error (List GeneratedFile × Stats) := do
  let selected ← q.select
  let outputs ← selected.mapM g.generateFile
  .ok (outputs.map (·.1), Stats.sum (outputs.map (·.2)))

/-- The files for all selected schema files. -/
def generate (g : Generator) (q : Request) : Except Error (List GeneratedFile) :=
  (g.run q).map (·.1)

end Generator

/-- The configuration in the parameter of a request; no parameter is an empty one. -/
def Request.config (q : Request) : Except Error Config := Config.ofParameter (q.parameter.getD "")

/-- The files that a request asks for. -/
def generate (q : Request) : Except Error (List GeneratedFile) := do
  let config ← q.config
  (Generator.yaml config).generate q

end SchemaSummary
