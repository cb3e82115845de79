import Mathlib.Tactic.MkIffOfInductiveProp
import SchemaSummary.Proofs.Document.RoundTrip
import SchemaSummary.Proofs.Generation.OutputNames

/-! # Characters of generated files

  The text of a document consists of line feeds and printable characters, whatever its names
  consist of. A name with any other character is written in double quotes, the one style that has
  escapes, and the escapes are printable themselves.
-/

namespace SchemaSummary

open Yaml

/-! ## Printable and hidden characters -/

namespace Yaml

/-- The printable characters of YAML, less tab, CR and the next-line control. -/
@[mk_iff]
inductive Printable (c : Char) : Prop
  | ascii (low : 0x20 ≤ c.toNat) (high : c.toNat ≤ 0x7E)
  | belowSurrogates (low : 0xA0 ≤ c.toNat) (high : c.toNat ≤ 0xD7FF)
  | aboveSurrogates (low : 0xE000 ≤ c.toNat) (high : c.toNat ≤ 0xFFFD) (mark : c.toNat ≠ 0xFEFF)
  | supplementary (low : 0x10000 ≤ c.toNat)

/-- The characters that are kept out of generated files. -/
@[mk_iff]
inductive Hidden (c : Char) : Prop
  | control (high : c.toNat < 0x20) (feed : c.toNat ≠ 0x0A)
  | deleteOrControl (low : 0x7F ≤ c.toNat) (high : c.toNat < 0xA0)
  | byteOrderMark (code : c.toNat = 0xFEFF)
  | noncharacter (low : 0xFFFE ≤ c.toNat) (high : c.toNat ≤ 0xFFFF)

theorem isPrintable_iff {c : Char} : isPrintable c = true ↔ c.toNat = 0x0A ∨ Printable c := by
  simp only [isPrintable, Bool.or_eq_true, Bool.and_eq_true, beq_iff_eq, bne_iff_ne,
    decide_eq_true_eq, printable_iff]
  tauto

/-- Every character is either hidden or may be written as it is. -/
theorem isPrintable_eq_false_iff {c : Char} : isPrintable c = false ↔ Hidden c := by
  -- A character is no surrogate, so the ranges meet.
  have hvalid : c.toNat < 0xD800 ∨ 0xDFFF < c.toNat ∧ c.toNat < 0x110000 := c.valid
  rw [← Bool.not_eq_true, isPrintable_iff, printable_iff, hidden_iff]
  omega

example : Hidden '\t' ∧ Hidden '\r' ∧ Hidden '\x7F' ∧ Hidden '\u0085' ∧ Hidden '\uFEFF' ∧
    Hidden '\uFFFE' ∧ Hidden '\uFFFF' := by
  simp only [← isPrintable_eq_false_iff]
  decide

/-- A text without a hidden character: only line feeds and printable characters are in it. -/
def Legible (text : String) : Prop :=
  ∀ c ∈ text.toList, (c = '\n' ∨ Printable c) ∧ ¬ Hidden c

theorem legible_iff {text : String} : Legible text ↔ text.toList.all isPrintable = true := by
  have hchar (c : Char) : ((c = '\n' ∨ Printable c) ∧ ¬ Hidden c) ↔ isPrintable c = true := by
    have hfeed : c = '\n' ↔ c.toNat = 0x0A := ⟨fun h => h ▸ rfl, fun h => Char.toNat_inj.mp h⟩
    rw [← isPrintable_eq_false_iff, Bool.not_eq_false, hfeed, ← isPrintable_iff, and_self]
  rw [Legible, List.all_eq_true]
  exact forall₂_congr fun c _ => hchar c

/-! ## Styles -/

/-- A hidden character leaves a text no style but the one with escapes, whichever style would
    suit the text without it. -/
theorem styleOf_of_hidden {v : List Char} {c : Char} (hmem : c ∈ v) (hc : Hidden c) :
    styleOf v = .doubleQuoted := by
  have hall : v.all isPrintable = false := by
    rw [List.all_eq_false]
    exact ⟨c, hmem, by rw [isPrintable_eq_false_iff.mpr hc]; decide⟩
  have hplain : plainCarries v = false := by rw [plainCarries, hall, Bool.and_false]
  have hsingle : singleQuotedCarries v = false := by rw [singleQuotedCarries, hall, Bool.and_false]
  have hliteral : literalCarries v = false := by rw [literalCarries, hall, Bool.and_false]
  rw [styleOf, quotedStyle, hplain, hsingle, hliteral]
  simp

end Yaml

/-! ## Documents and generated files -/

/-- The text of a document is legible. -/
theorem Document.legible_toYaml (d : Document) : Legible d.toYaml := by
  obtain ⟨-, hentries⟩ := d.writable_toNode
  rw [legible_iff, toYaml, Node.render, String.toList_ofList, toNode, Node.blockLines]
  exact isPrintable_unlines (Node.written_entryLines _ hentries 0)

/-- **Nothing hidden is generated**: encoding gives a legible text for every document, whatever
    its names, and so every file that is generated for a request is legible. -/
theorem encode_legible :
    (∀ (file : String) (d : Document), ∃ text,
      Encoder.yaml.encode file d = .ok text ∧ Legible text) ∧
    ∀ (q : Request) (files : List GeneratedFile), generate q = .ok files →
      ∀ file ∈ files, Legible file.content := by
  refine ⟨fun file d => ⟨d.toYaml, rfl, d.legible_toYaml⟩, ?_⟩
  intro q files h file hfile
  obtain ⟨c, f, -, -, hout⟩ := exists_selected_of_mem h hfile
  obtain ⟨stem, -, rfl⟩ := output_yaml_eq_ok_iff.mp hout
  exact f.document.legible_toYaml

/-! ### Names with hidden characters -/

/-- A request for a schema file whose names would be plain, in single quotes and a block if it
    were not for one character in each of them. -/
def hiddenNames : Request where
  filesToGenerate := ["a.proto"]
  files := [{ name := some "a.proto", services := [{ name := some "a\tb" },
    { name := some "- \uFEFF" }, { name := some "a\nb\r" }] }]

/-- What is generated for it. -/
def hiddenNamesFiles : List GeneratedFile :=
  [⟨"a.yaml", "messages: []\nservices:\n- name: \"a\\tb\"\n  methods: []\n" ++
    "- name: \"- \\uFEFF\"\n  methods: []\n- name: \"a\\nb\\r\"\n  methods: []\n"⟩]

/-- The names are in double quotes, and the file is legible. -/
theorem encode_legible_hiddenNames : generate hiddenNames = .ok hiddenNamesFiles ∧
    ∀ file ∈ hiddenNamesFiles, Legible file.content := by
  have h : generate hiddenNames = .ok hiddenNamesFiles := by decide +kernel
  exact ⟨h, encode_legible.2 hiddenNames hiddenNamesFiles h⟩

end SchemaSummary
