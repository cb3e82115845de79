import SchemaSummary.Generation.Generator
import SchemaSummary.Plugin.Response

/-! # The exchange with the host

  The host sends the bytes of a request and gets back the bytes of a response. An error of
  generation is part of the response; only bytes that are no request have none.
-/

namespace SchemaSummary

/-- A generated file as part of a response. -/
def GeneratedFile.toResponseFile (f : GeneratedFile) : ResponseFile where
  name := some f.name
  content := some f.content

/-- The response that carries the outcome of generation. -/
def Response.ofOutcome : Except Error (List GeneratedFile) → Response
  | .ok files =>
    { supportedFeatures := some optionalFields, files := files.map GeneratedFile.toResponseFile }
  | .error e => { supportedFeatures := some optionalFields, error := some e.message }

/-- The response to a request. -/
def respond (q : Request) : Response := .ofOutcome (generate q)

/-- The bytes of the response to the request in the given bytes. -/
def exchange (bs : List UInt8) : Except Error (List UInt8) :=
  match Request.decode bs with
  | .error fault => .error (.requestDecode fault)
  | .ok q => .ok (respond q).encode

end SchemaSummary
