import MessagePress.Proofs.DecodedValues
import MessagePress.Proofs.GenerationFaults
import MessagePress.Proofs.Interpolation
import MessagePress.Template.Generation

/-! Messages as documents. What a loaded template generates is read by the reader that loads
templates, and comes back as the interpolated body. -/

namespace MessagePress.Proofs.MessageReading
open Template Interpolation ValueReading DecodedValues PartialRuns
open GenerationFaults (generate_ok)

variable {values : Json.Members} {depth : ℕ}

private theorem mem_interpolateItems {items filled : List Json} {item : Json}
    (interpolated : interpolateItems values items = some filled) (found : item ∈ filled) :
    ∃ origin ∈ items, interpolateValue values origin = some item := by
  induction items generalizing filled with
  | nil => cases interpolated; exact absurd found List.not_mem_nil
  | cons first items ih =>
    simp only [interpolateItems, Option.bind_eq_bind, Option.bind_eq_some_iff] at interpolated
    obtain ⟨value, here, others, later, same⟩ := interpolated
    cases same
    rcases List.mem_cons.mp found with rfl | behind
    · exact ⟨first, List.mem_cons_self, here⟩
    · obtain ⟨origin, member, known⟩ := ih later behind
      exact ⟨origin, List.mem_cons_of_mem _ member, known⟩

private theorem mem_interpolateMembers {members filled : List (String × Json)}
    {member : String × Json} (interpolated : interpolateMembers values members = some filled)
    (found : member ∈ filled) :
    ∃ origin ∈ members, interpolateValue values origin.2 = some member.2 := by
  induction members generalizing filled with
  | nil => cases interpolated; exact absurd found List.not_mem_nil
  | cons first members ih =>
    obtain ⟨name, value⟩ := first
    simp only [interpolateMembers, Option.bind_eq_bind, Option.bind_eq_some_iff] at interpolated
    obtain ⟨named, -, here, known, others, later, same⟩ := interpolated
    cases same
    rcases List.mem_cons.mp found with rfl | behind
    · exact ⟨(name, value), List.mem_cons_self, known⟩
    · obtain ⟨origin, member, known⟩ := ih later behind
      exact ⟨origin, List.mem_cons_of_mem _ member, known⟩

/-- Interpolation changes texts, but neither the nesting nor a number. -/
theorem interpolated_fits {value filled : Json} (interpolated : interpolateValue values value = some filled)
    (fits : Fits depth value) : Fits depth filled := by
  induction depth generalizing value filled with
  | zero =>
    cases value with
    | null => cases interpolated; exact fits
    | bool value => cases interpolated; exact fits
    | number number => cases interpolated; exact fits
    | text content =>
      obtain ⟨text, -, rfl⟩ := Option.map_eq_some_iff.mp interpolated
      exact fits_text 0 text
    | array items => exact fits.elim
    | object members => exact fits.elim
  | succ depth ih =>
    cases value with
    | null => cases interpolated; exact fits
    | bool value => cases interpolated; exact fits
    | number number => cases interpolated; exact fits
    | text content =>
      obtain ⟨text, -, rfl⟩ := Option.map_eq_some_iff.mp interpolated
      exact fits_text _ text
    | array items =>
      obtain ⟨others, given, rfl⟩ := Option.map_eq_some_iff.mp interpolated
      intro item found
      obtain ⟨origin, member, known⟩ := mem_interpolateItems given found
      exact ih known (fits origin member)
    | object members =>
      obtain ⟨others, given, rfl⟩ := Option.map_eq_some_iff.mp interpolated
      intro member found
      obtain ⟨origin, held, known⟩ := mem_interpolateMembers given found
      exact ih known (fits origin held)

/-- A message is a document of the interpolated body, and of nothing else. -/
def ReadsBack (template : Template) (supply : Supply) (message : String) : Prop :=
  ∃ values filled read,
    (evaluate (supply.clocks 0) template.substitution supply.source).1 = .ok values ∧
    interpolateMembers values template.body = some filled ∧
    Json.ofBytes (Text.Utf8.encode message.toList) = .ok read ∧ ReadsAs (.object filled) read

/-- The supply that is left behind so many messages. -/
def supplyBehind (template : Template) : ℕ → Supply → Supply
  | 0, supply => supply
  | index + 1, supply => supplyBehind template index (template.generate supply).2

theorem generated_readsBack {template : Template} {supply : Supply} {message : String}
    (fits : Fits Json.depthLimit (.object template.body))
    (generated : (template.generate supply).1 = .ok message) : ReadsBack template supply message := by
  obtain ⟨values, evaluated, rendered⟩ := generate_ok generated
  obtain ⟨filled, interpolated, rfl⟩ := interpolated_of_render rendered
  have whole : interpolateValue values (.object template.body) = some (.object filled) := by
    rw [interpolateValue, interpolated]
    rfl
  obtain ⟨read, document, same⟩ := document_reads (interpolated_fits whole fits)
  refine ⟨values, filled, read, evaluated, interpolated, ?_, same⟩
  rw [Json.compact, String.toList_ofList]
  exact document

/-- Every message that a loaded template generates, however many are asked for and whatever the
random source and the clock give, is a document to the reader that loads templates. What is
read is the body with its keys and strings interpolated: nested alike, with the same nulls,
truth values and integers, and with one member for each key, the last of those that became
equal. -/
theorem messages_readBack {format : Format} {bytes : List UInt8} {template : Template}
    (loaded : ofBytes format bytes = .ok template) (count : ℕ) (supply : Supply) (index : ℕ)
    (message : String) (remaining : ℕ)
    (generated : (template.generate.outcomes count supply)[index]? = some (.ok message, remaining)) :
    ReadsBack template (supplyBehind template index supply) message := by
  have fits := loaded_fits loaded
  clear loaded
  induction count generalizing supply index with
  | zero => cases generated
  | succ count ih =>
    cases index with
    | zero =>
      have first : (template.generate supply).1 = .ok message := by
        simpa [Generator.outcomes] using congrArg (Option.map Prod.fst) generated
      exact generated_readsBack fits first
    | succ index => exact ih _ index generated

/-- A value that would end its string and its object, in the second message as in the first. -/
theorem messages_readBack_brace :
    let bytes := Text.Utf8.encode ("\x7b\"substitution\":\x7b\"k\":\"\\\"\x7d\"\x7d," ++
      "\"template\":\x7b\"a\":[\"\x7b\x7b.k\x7d\x7d\",-1]\x7d\x7d").toList
    let supply : Supply := ⟨⟨[]⟩, fun _ _ => ⟨0, 0⟩⟩
    let message := "\x7b\"a\":[\"\\\"\x7d\",-1]\x7d"
    ∃ template, ofBytes .json bytes = .ok template ∧
      (template.generate.outcomes 2 supply)[1]? = some (.ok message, 0) ∧
      ReadsBack template (supplyBehind template 1 supply) message := by
  intro bytes supply message
  have run : ((ofBytes .json bytes).toOption.bind fun template =>
      ((template.generate.outcomes 2 supply)[1]?).bind fun outcome =>
        outcome.1.toOption.map fun message => (message, outcome.2)) = some (message, 0) := by
    decide +kernel
  obtain ⟨template, loaded, run⟩ := Option.bind_eq_some_iff.mp run
  obtain ⟨⟨outcome, remaining⟩, found, run⟩ := Option.bind_eq_some_iff.mp run
  obtain ⟨result, given, same⟩ := Option.map_eq_some_iff.mp run
  cases same
  have loaded : ofBytes .json bytes = .ok template := of_toOption loaded
  have produced : outcome = .ok message := of_toOption given
  have second : (template.generate.outcomes 2 supply)[1]? = some (.ok message, 0) := by
    rw [found, produced]
  exact ⟨template, loaded, second, messages_readBack loaded 2 supply 1 message 0 second⟩

end MessagePress.Proofs.MessageReading
