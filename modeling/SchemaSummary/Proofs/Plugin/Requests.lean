import SchemaSummary.Command.Run
import SchemaSummary.Proofs.Schema.Descriptors

/-! # Requests as bytes

  Every way of writing a request is read as that request, and a run on it as a plugin gives the
  response to it:

    * the bytes that the writer produces,
    * fields of different numbers in another order, at any level,
    * numbers that take more bytes than they need,
    * fields that a message does not define, in front of, between and behind all others.

  Messages may be nested on 97 levels. The request and the file are two more, and so there is one
  level left of the hundred that are read. It is needed to pass over a field inside the fields of a
  message on the innermost level.
-/

namespace SchemaSummary

open Wire

/-! ## Requests as records -/

theorem Request.ofRecord_toRecord (q : Request) : ofRecord q.toRecord = q := by
  have hwanted : q.toRecord.texts 1 = q.filesToGenerate :=
    Record.texts_of_values (by simp [toRecord])
  have hparameter : q.toRecord.text? 2 = q.parameter := Record.text?_of_values (by simp [toRecord])
  have hfiles : (q.toRecord.messages 15).map FileDescriptor.ofRecord = q.files :=
    map_messages_of_values (by simp [toRecord]) fun f _ => f.ofRecord_toRecord
  rw [ofRecord, hwanted, hparameter, hfiles]

theorem Wire.Reordered.request {r s : Record} (h : Reordered r s) :
    Request.ofRecord r = Request.ofRecord s := by
  rw [Request.ofRecord, Request.ofRecord, h.texts_eq, h.text?_eq, h.map_messages_eq file]

theorem Request.fits_toRecord (q : Request) : Fits .request q.toRecord := by
  have hfiles : Fits .request (messageFields 15 (q.files.map FileDescriptor.toRecord)) :=
    fits_messageFields rfl rfl fun f _ => f.fits_toRecord
  exact ((fits_textFields rfl rfl _).append (fits_textField rfl rfl _)).append hfiles

theorem Request.depth_toRecord_le {q : Request} {n : Nat} (hpos : 0 < n)
    (h : ∀ f ∈ q.files, ∀ m ∈ f.messages, m.levels ≤ n) : q.toRecord.depth ≤ 2 + n := by
  have hfiles : (messageFields 15 (q.files.map FileDescriptor.toRecord)).depth ≤ 1 + (1 + n) :=
    Record.depth_messageFields_le fun f hf => FileDescriptor.depth_toRecord_le hpos (h f hf)
  rw [toRecord]
  simp only [Record.depth_append, Record.depth_textFields, Record.depth_textField]
  omega

/-! ## Runs on requests -/

/-- Whether bytes are read as a request and answered with the response to it. -/
structure Answered (q : Request) (bs : List UInt8) : Prop where
  decode : Request.decode bs = .ok q
  exchange : exchange bs = .ok (respond q).encode
  stdout : ∀ verbosity, (runPlugin verbosity bs).stdout = (respond q).encode
  exitCode : ∀ verbosity, (runPlugin verbosity bs).exitCode = 0

theorem answered_of_decode {q : Request} {bs : List UInt8} (h : Request.decode bs = .ok q) :
    Answered q bs where
  decode := h
  exchange := by rw [SchemaSummary.exchange, h]
  stdout verbosity := by rw [runPlugin, h]
  exitCode verbosity := by rw [runPlugin, h]

/-- **Every way of writing** a request whose messages are nested on no more than 97 levels is read
    as that request, and a run on it as a plugin gives the response to it. This holds for the bytes
    that the writer produces, and for all bytes with reordered fields and with fields that are not
    defined. -/
theorem answered_of_written {q : Request}
    (hnesting : ∀ f ∈ q.files, ∀ m ∈ f.messages, m.levels ≤ 97) :
    (q.encode.length < UInt64.size →
      Written .request q.toRecord q.encode ∧ Answered q q.encode) ∧
    ∀ r bs, Reordered q.toRecord r → Written .request r bs → Answered q bs := by
  have hdepth : q.toRecord.depth < maxDepth :=
    Nat.lt_of_le_of_lt (Request.depth_toRecord_le (by decide) hnesting) (by decide)
  have hreordered : ∀ r bs, Reordered q.toRecord r → Written .request r bs → Answered q bs := by
    intro r bs horder hwritten
    -- The bytes are read as the reordered record, and only what is read from that is the request.
    rw [horder.depth_eq] at hdepth
    apply answered_of_decode
    rw [Request.decode, decode_of_written hwritten hdepth, Except.map, ← horder.request,
      q.ofRecord_toRecord]
  refine ⟨fun hlength => ?_, hreordered⟩
  have hwritten : Written .request q.toRecord q.encode := written_encode q.fits_toRecord hlength
  exact ⟨hwritten, hreordered _ _ (.refl _) hwritten⟩

/-! ### A request with foreign fields -/

namespace Interleaved

def page : MessageDescriptor where
  name := some "Page"
  fields := [{ name := some "id", number := some (-1) }]

def book : MessageDescriptor where
  name := some "Book"
  nested := [page]

def file : FileDescriptor where
  name := some "a.proto"
  messages := [book]
  options := some {}

/-- Some fields are unset, and others are set to the value that unset fields have. -/
def request : Request where
  filesToGenerate := ["a.proto"]
  parameter := some ""
  files := [file]

/-- The options come first. -/
def fileRecord : Record :=
  messageField 8 (some []) ++ textField 1 (some "a.proto") ++ messageFields 4 [book.toRecord]

/-- What a request has besides its files. -/
def heading : Record := textFields 1 ["a.proto"] ++ textField 2 (some "")

/-- The files come first. -/
def record : Record := messageFields 15 [fileRecord] ++ heading

theorem reordered : Reordered request.toRecord record := by
  have hfile : Reordered file.toRecord fileRecord :=
    .append_comm (r := textField 1 (some "a.proto") ++ messageFields 4 [book.toRecord])
      (s := messageField 8 (some [])) (by decide)
  have hinside : Reordered ([] ++ (15, .message file.toRecord) :: heading)
      ([] ++ (15, .message fileRecord) :: heading) := .inside hfile
  exact .trans (.append_comm (by decide)) hinside

/-- A number that no field of a file has stands in front of the messages, in three bytes. -/
def fileBytes : List UInt8 :=
  Record.encode (messageField 8 (some []) ++ textField 1 (some "a.proto")) ++
    (keyBytes 99 .varint ++ [0x81, 0x80, 0x00] ++ Record.encode (messageFields 4 [book.toRecord]))

/-- Four bytes of a field that no request has stand behind the files. -/
def bytes : List UInt8 :=
  keyBytes 15 .delimited ++ delimitedBytes fileBytes ++
    (keyBytes 100 .fixed32 ++ [1, 2, 3, 4] ++ heading.encode)

theorem written_fileBytes : Written .file fileRecord fileBytes := by
  have hoptions : Fits .file (messageField 8 (file.options.map FileOptions.toRecord)) :=
    fits_messageField rfl rfl fun o _ => o.fits_toRecord
  have hmessages : Fits .file (messageFields 4 (file.messages.map MessageDescriptor.toRecord)) :=
    fits_messageFields rfl rfl fun m _ => m.fits_toRecord
  have hnumber : VarintForm [0x81, 0x80, 0x00] 1 :=
    ⟨.more (by decide) (.more (by decide) (.last (by decide))), by decide, by decide⟩
  refine .append (written_encode (hoptions.append (fits_textField rfl rfl _)) ?_) ?_
  · decide +kernel
  · exact .passedOver rfl (keyForm_keyBytes (by decide) (by decide)) (.varint hnumber)
      (written_encode hmessages (by decide +kernel))

theorem written_bytes : Written .request record bytes := by
  have hheading : Fits .request heading :=
    (fits_textFields rfl rfl _).append (fits_textField rfl rfl _)
  refine .message rfl rfl (keyForm_keyBytes (by decide) (by decide))
    (delimitedForm_delimitedBytes (by decide +kernel)) written_fileBytes ?_
  exact .passedOver rfl (keyForm_keyBytes (by decide) (by decide)) (.fixed32 rfl)
    (written_encode hheading (by decide +kernel))

end Interleaved

open Interleaved in
theorem answered_interleaved :
    (∀ f ∈ request.files, ∀ m ∈ f.messages, m.levels ≤ 97) ∧
      request.encode.length < UInt64.size ∧ Answered request request.encode ∧
      Reordered request.toRecord record ∧ Written .request record bytes ∧
      bytes ≠ request.encode ∧ Answered request bytes := by
  have hnesting : ∀ f ∈ request.files, ∀ m ∈ f.messages, m.levels ≤ 97 := by decide
  have hlength : request.encode.length < UInt64.size := by decide +kernel
  obtain ⟨hencoded, hothers⟩ := answered_of_written hnesting
  exact ⟨hnesting, hlength, (hencoded hlength).2, reordered, written_bytes, by decide +kernel,
    hothers record bytes reordered written_bytes⟩

end SchemaSummary
