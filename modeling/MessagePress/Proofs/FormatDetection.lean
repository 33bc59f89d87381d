import MessagePress.Proofs.FlowRuns
import MessagePress.Proofs.FoundNumerals
import MessagePress.Proofs.NumeralAgreement
import MessagePress.Proofs.OpenDocuments
import MessagePress.Proofs.SourceTexts

/-! Templates of an unknown format. Documents that one reader takes are tried with the other one
first, which takes most of them for the same template, and leaves the rest to the reader that
they are meant for. -/

namespace MessagePress.Proofs.FormatDetection
open Yaml JsonSyntax JsonForms TemplateForms FlowNodes FlowRuns FlowDocuments FoundNumerals NumeralAgreement
  OpenDocuments SourceTexts ScanProgress DecodedValues
open QuotedScans (isUnfolded)
open PartialRuns (of_mapError)
open Template (Format ofJson ofYaml ofBytes)
open Text.Utf8 (encode)
open Utf8Coding (encode_injective)

variable {bytes : List UInt8} {template : Template} {text : List Char}

/-- A document in whose strings no line break is folded, and whose numbers are the same to
both readers. Bytes that are no text are left to one of them anyway. -/
def ReadsAlike (bytes : List UInt8) : Prop :=
  ∀ text, bytes = encode text → isUnfolded text = true ∧ ∀ numeral ∈ numerals text, Alike numeral

theorem names_alike {word : List Char} (named : word ∈ names) : Alike word := by
  intro value found meant given
  simp only [names, List.mem_cons, List.not_mem_nil, or_false] at named
  rcases named with rfl | rfl | rfl
  · exact (Except.ok.inj given).symm.trans (Except.ok.inj ((name_document (.inl ⟨rfl, rfl⟩)).symm.trans meant))
  · exact (Except.ok.inj given).symm.trans
      (Except.ok.inj ((name_document (.inr (.inl ⟨rfl, rfl⟩))).symm.trans meant))
  · exact (Except.ok.inj given).symm.trans
      (Except.ok.inj ((name_document (.inr (.inr ⟨rfl, rfl⟩))).symm.trans meant))

theorem source_whole (through : (TokenStream.ofSource (Source.ofBytes bytes)).fault = none) :
    (Source.ofBytes bytes).broken = none := by
  refine Classical.byContradiction fun broken => ?_
  have enough : (Source.ofBytes bytes).start.rest.length < (Source.ofBytes bytes).chars.length + 2 :=
    Nat.lt_succ_of_le (Nat.le_succ _)
  exact readTokens_fault broken ofBytes_visible enough through

theorem template_collection {tree : Tree} (means : TemplateMeans tree template) :
    (∀ word, tree ≠ .word word) ∧
      ∀ shown, Shown tree shown → ∃ mapping rest, shown = startKind mapping :: rest := by
  cases means with
  | object _ =>
    refine ⟨by rintro _ ⟨⟩, fun shown shows => ?_⟩
    rw [Shown] at shows
    obtain ⟨inner, -, rfl⟩ := shows
    exact ⟨true, _, rfl⟩
  | array _ _ =>
    refine ⟨by rintro _ ⟨⟩, fun shown shows => ?_⟩
    rw [Shown] at shows
    obtain ⟨inner, -, rfl⟩ := shows
    exact ⟨false, _, rfl⟩

/-- The template of a written tree is the one that the other reader makes of its document, if it
makes one. -/
theorem ofYaml_written {tree : Tree} {found : Template} (written : Written (lexemes tree) text [])
    (means : TemplateMeans tree template) (alike : AllAlike (lexemes tree)) (unfolded : isUnfolded text = true)
    (same : bytes = encode text) (read : ofYaml bytes = .ok found) : found = template := by
  obtain ⟨through, events⟩ := ofBytes_sound read
  have whole := source_whole through
  have chars : (Source.ofBytes bytes).chars = text := encode_injective ((ofBytes_encode whole).symm.trans same)
  obtain ⟨collection, starts⟩ := template_collection means
  obtain ⟨shown, shows, tokens⟩ := source_shown collection whole (chars ▸ written) (chars ▸ unfolded) through
  obtain ⟨node, root, builds⟩ := document_builds shows (starts shown shows) tokens events
  have decodes : ∀ start, (Document.ofBytes bytes).root = some start →
      Decodes (Template.decode ⟨start, .root⟩) (· = template) := by
    intro start begins
    obtain rfl := Option.some.inj (root.symm.trans begins)
    exact template_decodes builds means alike
  exact @root_decodes _ (· = template) _ _ _ decodes read

/-- Two readers agree where they both read a document. -/
theorem ofYaml_ofJson {found : Template} (alike : ReadsAlike bytes) (loaded : ofJson bytes = .ok template)
    (read : ofYaml bytes = .ok found) : found = template := by
  have same := ofBytes_encode (source_whole (ofBytes_sound read).1)
  obtain ⟨unfolded, numbers⟩ := alike _ same
  rw [same] at loaded
  obtain ⟨tree, written, means⟩ := template_written _ template (of_mapError loaded)
  refine ofYaml_written written means (fun word member => ?_) unfolded same read
  exact (found_word written member).elim names_alike (numbers word)

/-- A document that is read in its own format is read in an unknown one, and to the same template
unless a line break is folded in one of its strings or one of its numbers is rounded otherwise. -/
theorem detected_template (loaded : ofBytes .json bytes = .ok template) :
    (∃ found, ofBytes .auto bytes = .ok found) ∧
      (ReadsAlike bytes → ofBytes .auto bytes = .ok template ∧
        ∀ read path, Format.ofPath path ≠ .yaml → read path = .ok bytes → Template.load read path = .ok template) ∧
      ∀ word, Common word → Alike word := by
  have direct : ofJson bytes = .ok template := of_mapError loaded
  refine ⟨?_, fun alike => ?_, fun word => common_alike⟩
  · cases read : ofYaml bytes with
    | ok found => exact ⟨found, by simp only [ofBytes, read]⟩
    | error fault => exact ⟨template, by simp only [ofBytes, read, direct]; rfl⟩
  · have detected : ofBytes .auto bytes = .ok template := by
      cases read : ofYaml bytes with
      | ok found =>
        rw [← ofYaml_ofJson alike direct read]
        simp only [ofBytes, read]
      | error fault =>
        simp only [ofBytes, read, direct]
        rfl
    refine ⟨detected, fun read path other given => ?_⟩
    have opened : Template.load read path = ofBytes (Format.ofPath path) bytes := by
      rw [Template.load, given]
      rfl
    rw [opened]
    cases format : Format.ofPath path with
    | json => exact loaded
    | yaml => exact absurd format other
    | auto => exact detected

/-- The texts of both sections of a template that is read. -/
def sectionTexts (format : Format) (bytes : List UInt8) : Option (String × String) :=
  (ofBytes format bytes).toOption.map fun template =>
    (Json.compact (.object template.substitution), Json.compact (.object template.body))

theorem read_of_sectionTexts {format : Format} {texts : String × String}
    (shown : sectionTexts format bytes = some texts) : ∃ template, ofBytes format bytes = .ok template := by
  cases read : ofBytes format bytes with
  | ok template => exact ⟨template, rfl⟩
  | error fault =>
    rw [sectionTexts, read] at shown
    cases shown

private def sampleText : List Char :=
  "\x7b\"template\":\x7b\"a\":[2.5e3,\"x\\ny\"]\x7d,\"substitution\":\x7b\"b\":null\x7d\x7d".toList

/-- Both sections, with a number that has a power of ten and a string that has an escape. -/
theorem detected_template_sections : sectionTexts .auto (encode sampleText) =
    some ("\x7b\"b\":null\x7d", "\x7b\"a\":[2500.0,\"x\\ny\"]\x7d") := by
  have shown : sectionTexts .json (encode sampleText) =
      some ("\x7b\"b\":null\x7d", "\x7b\"a\":[2500.0,\"x\\ny\"]\x7d") := by decide +kernel
  obtain ⟨template, loaded⟩ := read_of_sectionTexts shown
  have alike : ReadsAlike (encode sampleText) := by
    intro text same
    obtain rfl := encode_injective same
    refine ⟨by decide +kernel, fun numeral found => ?_⟩
    have only : numerals sampleText = [['2', '.', '5', 'e', '3']] := by decide +kernel
    rw [only, List.mem_singleton] at found
    subst found
    have front : NumberReading.Whole ['2'] := ⟨by simp, Or.inr ⟨'2', [], rfl, by decide⟩⟩
    have behind : ∀ c ∈ ['5'], c.isDigit = true := by simp
    have scaled : Scale ['e', '3'] 3 := .power (.inl rfl) (.plain (List.cons_ne_nil '3' []) (by simp))
    exact common_alike (@Common.decimal false _ _ _ _ front behind scaled (Or.inr (List.cons_ne_nil _ _))
      (by decide) (by decide) (by decide))
  rw [sectionTexts, ((detected_template loaded).2.1 alike).1, ← shown, sectionTexts, loaded]

/-- A negated zero is an integer to one reader and not to the other. -/
theorem detection_differs : ¬∀ bytes template,
    ofBytes .json bytes = .ok template → ofBytes .auto bytes = .ok template := by
  intro alike
  have shown : sectionTexts .json (encode "\x7b\"template\":\x7b\"a\":-0\x7d\x7d".toList) =
      some ("\x7b\x7d", "\x7b\"a\":-0.0\x7d") := by decide +kernel
  have detected : sectionTexts .auto (encode "\x7b\"template\":\x7b\"a\":-0\x7d\x7d".toList) =
      some ("\x7b\x7d", "\x7b\"a\":0\x7d") := by decide +kernel
  obtain ⟨template, loaded⟩ := read_of_sectionTexts shown
  rw [sectionTexts, loaded] at shown
  rw [sectionTexts, alike _ _ loaded] at detected
  exact absurd (shown.symm.trans detected) (by decide)

end MessagePress.Proofs.FormatDetection
