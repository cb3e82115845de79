import SchemaSummary.Proofs.Plugin.Requests

/-! # Responses as bytes

  The bytes of a response are read as that response. So a host that reads what a run as a plugin
  gives it gets the outcome of generation, whatever the names, contents and texts of errors are.

  Reading needs the length of every part, and a length has sixty-four bits. So this is said of
  responses with fewer than 2 ^ 64 bytes.
-/

namespace SchemaSummary

open Wire

/-! ## Responses as records -/

theorem ResponseFile.ofRecord_toRecord (f : ResponseFile) : ofRecord f.toRecord = f := by
  have hname : f.toRecord.text? 1 = f.name := Record.text?_of_values (by simp [toRecord])
  have hpoint : f.toRecord.text? 2 = f.insertionPoint :=
    Record.text?_of_values (by simp [toRecord])
  have hcontent : f.toRecord.text? 15 = f.content := Record.text?_of_values (by simp [toRecord])
  rw [ofRecord, hname, hpoint, hcontent]

theorem Response.ofRecord_toRecord (a : Response) : ofRecord a.toRecord = a := by
  have herror : a.toRecord.text? 1 = a.error := Record.text?_of_values (by simp [toRecord])
  have hfeatures : a.toRecord.varint? 2 = a.supportedFeatures :=
    Record.varint?_of_values (by simp [toRecord])
  have hfiles : (a.toRecord.messages 15).map ResponseFile.ofRecord = a.files :=
    map_messages_of_values (by simp [toRecord]) fun f _ => f.ofRecord_toRecord
  rw [ofRecord, herror, hfeatures, hfiles]

theorem ResponseFile.fits_toRecord (f : ResponseFile) : Fits .responseFile f.toRecord :=
  ((fits_textField rfl rfl _).append (fits_textField rfl rfl _)).append (fits_textField rfl rfl _)

theorem Response.fits_toRecord (a : Response) : Fits .response a.toRecord := by
  have hfiles : Fits .response (messageFields 15 (a.files.map ResponseFile.toRecord)) :=
    fits_messageFields rfl rfl fun f _ => f.fits_toRecord
  exact ((fits_textField rfl rfl _).append (fits_varintField rfl rfl _)).append hfiles

theorem ResponseFile.depth_toRecord (f : ResponseFile) : f.toRecord.depth = 0 := by
  simp [toRecord]

theorem Response.depth_toRecord_le (a : Response) : a.toRecord.depth ≤ 1 := by
  have hfiles : (messageFields 15 (a.files.map ResponseFile.toRecord)).depth ≤ 1 + 0 :=
    Record.depth_messageFields_le fun f _ => Nat.le_of_eq f.depth_toRecord
  simpa [toRecord] using hfiles

/-- A response is read back from its bytes. -/
theorem Response.decode_encode {a : Response} (hlength : a.encode.length < UInt64.size) :
    decode a.encode = .ok a := by
  have hdepth : a.toRecord.depth < maxDepth :=
    Nat.lt_of_le_of_lt a.depth_toRecord_le (by decide)
  rw [decode, encode, Wire.decode_encode a.fits_toRecord hdepth hlength, Except.map,
    a.ofRecord_toRecord]

/-! ## What a response carries -/

/-- Whether a response carries an outcome of generation: the generated files in order, or else the
    text of the error, and nothing besides. -/
def Response.Carries (a : Response) : Except Error (List GeneratedFile) → Prop
  | .ok files =>
    a.error = none ∧
      a.files.map (fun f => (f.name, f.content)) =
        files.map (fun f => (some f.name, some f.content))
  | .error e => a.error = some e.message ∧ a.files = []

theorem Response.carries_ofOutcome (outcome : Except Error (List GeneratedFile)) :
    (ofOutcome outcome).Carries outcome := by
  cases outcome with
  | ok files => exact ⟨rfl, List.map_map⟩
  | error e => exact ⟨rfl, rfl⟩

/-- Content is never inserted into other files. -/
theorem Response.insertionPoint_ofOutcome (outcome : Except Error (List GeneratedFile)) :
    ∀ f ∈ (ofOutcome outcome).files, f.insertionPoint = none := by
  cases outcome with
  | ok files => exact List.forall_mem_map.mpr fun f _ => rfl
  | error e => exact nofun

theorem Response.supportedFeatures_ofOutcome (outcome : Except Error (List GeneratedFile)) :
    (ofOutcome outcome).supportedFeatures = some 1 := by
  cases outcome <;> rfl

/-- **What the host reads** in the bytes that a run as a plugin gives is the response to its
    request, and this carries the outcome of generation. -/
theorem response_read_back {q : Request} (hlength : (respond q).encode.length < UInt64.size) :
    Written .response (respond q).toRecord (respond q).encode ∧
      Response.decode (respond q).encode = .ok (respond q) ∧
      (∀ verbosity bs, Request.decode bs = .ok q →
        (runPlugin verbosity bs).stdout = (respond q).encode) ∧
      (respond q).Carries (generate q) ∧ (respond q).supportedFeatures = some 1 ∧
      ∀ f ∈ (respond q).files, f.insertionPoint = none := by
  refine ⟨written_encode (respond q).fits_toRecord hlength, Response.decode_encode hlength,
    fun verbosity bs hdecode => (answered_of_decode hdecode).stdout verbosity, ?_, ?_, ?_⟩
  · exact Response.carries_ofOutcome (generate q)
  · exact Response.supportedFeatures_ofOutcome (generate q)
  · exact Response.insertionPoint_ofOutcome (generate q)

namespace Umlauts

/-- Two schema files with names that take more bytes than characters. -/
def request : Request where
  filesToGenerate := ["öl.proto", "b.proto"]
  files := [
    { name := some "öl.proto", package := some "größe", messages := [{ name := some "Öl" }] },
    { name := some "b.proto" }]

/-- A request for a file that is not described. -/
def refused : Request where
  filesToGenerate := ["öl.proto"]

def answer : Response where
  supportedFeatures := some 1
  files := [
    { name := some "öl.yaml"
      content := some "messages:\n- name: größe.Öl\n  fields: []\nservices: []\n" },
    { name := some "b.yaml", content := some "messages: []\nservices: []\n" }]

def answerToRefused : Response where
  supportedFeatures := some 1
  error := some "no descriptor for generated file: öl.proto"

end Umlauts

open Umlauts in
theorem response_read_back_umlauts :
    (respond request).encode.length < UInt64.size ∧
      Response.decode (respond request).encode = .ok answer ∧
      (respond refused).encode.length < UInt64.size ∧
      Response.decode (respond refused).encode = .ok answerToRefused := by
  have hanswer : respond request = answer := by decide +kernel
  have hrefused : respond refused = answerToRefused := by decide +kernel
  have hlength : (respond request).encode.length < UInt64.size := by decide +kernel
  have hshort : (respond refused).encode.length < UInt64.size := by decide +kernel
  obtain ⟨-, hread, -⟩ := response_read_back hlength
  obtain ⟨-, hreadRefused, -⟩ := response_read_back hshort
  exact ⟨hlength, hanswer ▸ hread, hshort, hrefused ▸ hreadRefused⟩

end SchemaSummary
