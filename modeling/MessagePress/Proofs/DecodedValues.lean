import MessagePress.Proofs.ReadValues
import MessagePress.Template.Load

/-! What a template can be loaded to. Scalars stand for numbers in range, and collections are
counted down from the limit, so every body that is loaded can be printed and read again. -/

namespace MessagePress.Proofs.DecodedValues
open Template Yaml Yaml.Decode Rounding NumberReading ValueReading MemberLists ReadValues PartialRuns

/-- What a scalar stands for is in range. -/
def ScalarInRange : ScalarValue → Prop
  | .integer value => InRange (.integer value)
  | .real (.finite value) => Finite value
  | _ => True

theorem readDigits_le {radix limit value result : ℕ} {digits : List Char} (small : value ≤ limit)
    (read : Text.readDigits radix limit value digits = .ok result) : result ≤ limit := by
  induction digits generalizing value with
  | nil => cases read; exact small
  | cons c digits ih =>
    rw [Text.readDigits] at read
    split at read
    · cases read
    · split at read
      next fits => exact ih fits read
      next => cases read

theorem readNat_le {radix limit result : ℕ} {digits : List Char}
    (read : Text.readNat radix limit digits = .ok result) : result ≤ limit := by
  unfold Text.readNat at read
  split at read
  · cases read
  · cases read
  · exact readDigits_le (Nat.zero_le limit) read
  · exact readDigits_le (Nat.zero_le limit) read

private theorem markedNat?_le {limit result : ℕ} {text : List Char}
    (read : markedNat? limit text = some result) : result ≤ limit := by
  unfold markedNat? at read
  split at read
  · obtain ⟨radix, -, read⟩ := Option.bind_eq_some_iff.mp read
    split at read
    · cases read
    · exact readNat_le (of_toOption read)
  · cases read

private theorem unsigned?_le {limit result : ℕ} {text : List Char}
    (read : unsigned? limit text = some result) : result ≤ limit := by
  unfold unsigned? at read
  dsimp only at read
  split at read
  next marked => exact markedNat?_le (read ▸ marked)
  next =>
    split at read
    · cases read
    · exact readNat_le (of_toOption read)

private theorem negative?_ge {limit : ℕ} {result : ℤ} {text : List Char}
    (read : negative? limit text = some result) : -(limit : ℤ) ≤ result ∧ result ≤ 0 := by
  unfold negative? at read
  split at read
  · split at read
    next value marked =>
      have le := markedNat?_le marked
      cases read
      omega
    next =>
      split at read
      · cases read
      · obtain ⟨value, given, rfl⟩ := Option.map_eq_some_iff.mp read
        obtain ⟨digits, found, same⟩ := Option.bind_eq_some_iff.mp given
        cases same
        have le := readNat_le (of_toOption found)
        omega
  · cases read

theorem integer?_range {value : ℤ} {text : List Char} (read : integer? 64 text = some value) :
    InRange (.integer value) := by
  unfold integer? maxUnsigned maxMagnitude at read
  rw [Nat.pow_eq, Nat.pow_eq] at read
  split at read
  next number given =>
    have le := unsigned?_le given
    cases read
    exact ⟨by omega, by omega⟩
  next =>
    have range := negative?_ge read
    exact ⟨by omega, by omega⟩

theorem finite_of_ofDecimal? {negative : Bool} {significand : ℕ} {exponent : ℤ} {value : Binary64}
    (found : Binary64.ofDecimal? negative significand exponent = some value) : Finite value := by
  unfold Binary64.ofDecimal? at found
  split at found
  · cases found
    exact zero_finite negative
  dsimp only at found
  split at found
  · cases found
  split at found
  · cases found
    exact zero_finite negative
  split at found
  · exact finite_of_ofQuotient? one_pos found
  · exact finite_of_ofQuotient? (Nat.pow_pos (by norm_num)) found

private theorem finite_of_decimal? {text : List Char} {value : Binary64}
    (found : decimal? text = some value) : Finite value := by
  unfold decimal? at found
  generalize (if isSigned text then text.drop 1 else text) = body at found
  dsimp only at found
  split at found
  all_goals
    split at found
    · cases found
    · obtain ⟨exponent, -, found⟩ := Option.bind_eq_some_iff.mp found
      exact finite_of_ofDecimal? found

theorem real?_range {value : Yaml.Real} {text : List Char} (read : real? text = some value) :
    ScalarInRange (.real value) := by
  unfold real? at read
  dsimp only at read
  split at read
  · cases read
  split at read
  · cases read; trivial
  split at read
  · cases read; trivial
  split at read
  · cases read; trivial
  obtain ⟨number, given, rfl⟩ := Option.map_eq_some_iff.mp read
  exact finite_of_decimal? given

theorem integerValue?_range {value : ScalarValue} {text : List Char}
    (read : integerValue? text = some value) : ScalarInRange value := by
  unfold integerValue? at read
  split at read
  next number given => cases read; exact integer?_range given
  next =>
    obtain ⟨number, -, rfl⟩ := Option.map_eq_some_iff.mp read
    trivial

theorem plainValue_range (text : List Char) : ScalarInRange (plainValue text) := by
  unfold plainValue
  split
  · trivial
  split
  · trivial
  next given => exact integerValue?_range given
  split
  · trivial
  split
  next given => exact real?_range given
  next => trivial

private theorem elim_ok {value? : Option ScalarValue} {kind : ScalarKind} {value : ScalarValue}
    (read : value?.elim (.error kind) .ok = (.ok value : Except ScalarKind ScalarValue)) :
    value? = some value := by
  cases value? with
  | none => cases read
  | some found => cases read; rfl

theorem scalarValue_range {tag : Option TagBytes} {text : List Char} {style : ScalarStyle}
    {value : ScalarValue} (read : scalarValue tag text style = .ok value) : ScalarInRange value := by
  unfold scalarValue at read
  split at read
  · cases read
    split
    · exact plainValue_range text
    · trivial
  split at read
  · obtain ⟨found, -, rfl⟩ := Option.map_eq_some_iff.mp (elim_ok read)
    trivial
  split at read
  · exact integerValue?_range (elim_ok read)
  split at read
  · obtain ⟨found, given, rfl⟩ := Option.map_eq_some_iff.mp (elim_ok read)
    exact real?_range given
  split at read
  · split at read
    · cases read; trivial
    · cases read
  split at read
  · cases read
    exact plainValue_range text
  · cases read
    trivial

theorem jsonScalar_fits {text : List Char} {value : ScalarValue} {result : Json} {depth : ℕ}
    (range : ScalarInRange value) (read : jsonScalar text value = .ok result) : Fits depth result := by
  unfold jsonScalar at read
  split at read <;> cases read
  · exact fits_null depth
  · exact fits_bool depth _
  · exact fits_number.mpr range
  · exact fits_number.mpr range
  · exact fits_null depth
  · exact fits_text depth _

/-- What decoding gives is as stated, if it gives anything. -/
def Decodes (action : Decode α) (post : α → Prop) : Prop :=
  ∀ environment, Gives (action environment) post

variable {action : Decode α} {next : α → Decode β} {post between : α → Prop} {last : β → Prop}

theorem Decodes.pure {value : α} (holds : post value) : Decodes (Pure.pure value) post :=
  fun _ => .pure holds

theorem Decodes.bind (given : Decodes action between)
    (continued : ∀ value, between value → Decodes (next value) last) :
    Decodes (action >>= next) last :=
  fun environment => .bind (given environment) fun value known => continued value known environment

theorem Decodes.behind (continued : ∀ value, Decodes (next value) last) :
    Decodes (action >>= next) last :=
  fun environment => .behind fun value => continued value environment

theorem throw_decodes (fault : Fault) : Decodes (throw fault : Decode α) post := by
  rintro environment before value after ⟨⟩

theorem failWith_decodes (cause : Cause) : Decodes (failWith cause) post := throw_decodes _

theorem failAtEnd_decodes : Decodes failAtEnd post := .behind fun _ => throw_decodes _

theorem failType_decodes (node : Node) (expected : String) : Decodes (failType node expected) post := by
  unfold failType
  split
  · exact throw_decodes _
  · split <;> exact failWith_decodes _
  · exact failWith_decodes _
  · exact failWith_decodes _
  · exact failAtEnd_decodes

theorem placed_gives {environment : Environment} {mark : Mark} {path : Path}
    (given : Gives (action environment) post) : Gives (placed mark path action environment) post := by
  intro before value after finished
  change Except.tryCatch (action environment before) _ = _ at finished
  cases decoded : action environment before with
  | error fault =>
    rw [decoded] at finished
    dsimp only [Except.tryCatch] at finished
    split at finished <;> cases finished
  | ok result =>
    rw [decoded] at finished
    cases finished
    exact given _ _ _ decoded

theorem placed_decodes (mark : Mark) (path : Path) (given : Decodes action post) :
    Decodes (placed mark path action) post :=
  fun environment => placed_gives (given environment)

theorem readItems_decodes {path : Path} {element : Located → Decode α} {complete : Bool}
    (each : ∀ located, Decodes (element located) post) (index : ℕ) (nodes : List Node) :
    Decodes (Decode.readItems path element complete index nodes) fun items =>
      ∀ item ∈ items, post item := by
  induction nodes generalizing index with
  | nil =>
    rw [Decode.readItems]
    split
    · exact .pure (by simp)
    · exact failAtEnd_decodes
  | cons node nodes ih =>
    refine .bind (each _) fun value known => .bind (ih _) fun items later => .pure ?_
    exact List.forall_mem_cons.mpr ⟨known, later⟩

variable {σ : Type} {holds : σ → Prop}

/-- Entries one after the other: what one step keeps, all of them keep. -/
theorem readEntries_decodes {path : Path} {expected : ℕ → String}
    {step : σ → String → Located → Decode σ} {complete : Bool}
    (kept : ∀ state name value, holds state → Decodes (step state name value) holds) (index : ℕ)
    {state : σ} (start : holds state) (nodes : List Node) :
    Decodes (readEntries path expected step complete index state nodes) holds := by
  induction nodes using List.twoStepInduction generalizing index state with
  | nil =>
    rw [readEntries]
    split
    · exact .pure start
    · exact failAtEnd_decodes
  | singleton key =>
    rw [readEntries]
    exact .behind fun _ => failAtEnd_decodes
  | cons_cons key value rest ih _ =>
    rw [readEntries]
    exact .behind fun name => .bind (kept _ _ _ start) fun state known => ih (index + 1) known

theorem mapping_decodes {depth : ℕ} {expected : String} {expectedKey : ℕ → String} {state : σ}
    {step : ℕ → σ → String → Located → Decode σ} {finish : σ → Decode α}
    (kept : ∀ inner, depth = inner + 1 → ∀ state name value, holds state →
      Decodes (step inner state name value) holds)
    (start : holds state) (finished : ∀ state, holds state → Decodes (finish state) post)
    (located : Located) :
    Decodes (mapping depth expected expectedKey state step finish located) post := by
  unfold mapping
  refine .behind fun ⟨node, path⟩ => placed_decodes _ _ ?_
  split
  · cases depth with
    | zero => exact throw_decodes _
    | succ inner =>
      exact .bind (readEntries_decodes (kept inner rfl) 0 start _) fun state known => finished state known
  · split
    · exact finished _ start
    · exact failType_decodes _ _

theorem jsonMember_decodes {inner : Located → Decode Json} {depth : ℕ} {members : Json.Members}
    (each : ∀ located, Decodes (inner located) (Fits depth)) (fits : MembersFit depth members)
    (name : String) (value : Located) :
    Decodes (jsonMember inner members name value) (MembersFit depth) := by
  refine .bind (each value) fun value known => .pure fun member found => ?_
  rcases mem_insert found with rfl | old
  · exact known
  · exact fits member old

private theorem noMembers_fit (depth : ℕ) : MembersFit depth [] :=
  fun _ found => absurd found List.not_mem_nil

theorem ofCause_decodes {result : Except Cause α} (given : ∀ value, result = .ok value → post value) :
    Decodes (anyWith.ofCause result) post := by
  unfold anyWith.ofCause
  split
  · exact .pure (given _ rfl)
  · exact failWith_decodes _

/-- Collections are one level deeper than what they hold. -/
theorem anyWith_decodes {inner? : Option (Located → Decode Json)} {depth : ℕ}
    (deeper : ∀ inner, inner? = some inner → ∃ below, depth = below + 1 ∧
      ∀ located, Decodes (inner located) (Fits below)) (located : Located) :
    Decodes (anyWith jsonBuilder inner? located) (Fits depth) := by
  unfold anyWith
  refine .behind fun ⟨node, path⟩ => placed_decodes _ _ ?_
  split
  · exact failWith_decodes _
  split
  · exact ofCause_decodes fun value same => @jsonScalar_fits [] .null _ _ trivial same
  · exact failAtEnd_decodes
  · split
    next value read => exact ofCause_decodes fun value same => jsonScalar_fits (scalarValue_range read) same
    next => exact failWith_decodes _
  · obtain ⟨below, rfl, each⟩ := deeper _ rfl
    exact .bind (readItems_decodes each 0 _) fun items known => .pure known
  · obtain ⟨below, rfl, each⟩ := deeper _ rfl
    refine .bind (readEntries_decodes (fun state name value fits =>
      jsonMember_decodes each fits name value) 0 (noMembers_fit below) _) fun members known => .pure known
  · exact throw_decodes _

theorem json_decodes (depth : ℕ) (located : Located) : Decodes (json depth located) (Fits depth) := by
  induction depth generalizing located with
  | zero =>
    refine anyWith_decodes (fun inner same => ?_) located
    cases same
  | succ depth ih =>
    refine anyWith_decodes (fun inner same => ⟨depth, rfl, ?_⟩) located
    cases same
    exact ih

theorem jsonMembers_decodes (depth : ℕ) (located : Located) :
    Decodes (jsonMembers (depth + 1) located) (MembersFit depth) := by
  refine mapping_decodes (fun inner same state name value fits => ?_) (noMembers_fit depth)
    (fun members known => .pure known) located
  cases same
  exact jsonMember_decodes (json_decodes depth) fits name value

theorem once_decodes (name : String) (old : Option α) (given : Decodes action post) :
    Decodes (once name old action) fun value? => ∀ value, value? = some value → post value := by
  unfold once
  split
  · exact failWith_decodes _
  · refine .bind given fun value known => .pure ?_
    rintro value ⟨⟩
    exact known

theorem decodeEntry_decodes {sections : Sections} {depth : ℕ} (fits : BodyFits depth sections)
    (name : String) (value : Located) :
    Decodes (decodeEntry (depth + 1) sections name value) (BodyFits depth) := by
  unfold decodeEntry
  split
  · exact .behind fun section? => .pure fits
  · exact .bind (once_decodes _ _ (jsonMembers_decodes depth value)) fun body known => .pure known
  · exact .behind fun _ => .pure fits

theorem decode_decodes (located : Located) :
    Decodes (decode located) fun template => MembersFit 126 template.body := by
  have finished (sections : Sections) (known : BodyFits 126 sections) :
      Decodes (pure sections.template) fun template => MembersFit 126 template.body :=
    .pure (template_fits known)
  refine mapping_decodes (fun inner same sections name value fits => ?_) ?_ finished located
  · cases same
    exact decodeEntry_decodes fits name value
  · exact fun body none => nomatch none

/-- What the reading of a document depends on. -/
def surroundings (document : Document) : Environment :=
  ⟨document.anchored, document.size * 100, (document.fault.map Fault.document).getD .endOfStream⟩

theorem root_gives {document : Document} {decoder : Located → Decode α} {value : α}
    (given : ∀ root, document.root = some root →
      Gives (decoder ⟨root, .root⟩ (surroundings document)) post)
    (decoded : document.decode decoder = .ok value) : post value := by
  unfold Document.decode at decoded
  dsimp only at decoded
  split at decoded
  · cases decoded
  next root found =>
    obtain ⟨result, finished, decoded⟩ := of_bind decoded
    have known := given root found _ _ _ finished
    split at decoded
    · cases decoded
    · split at decoded
      · cases decoded
      · cases decoded
        exact known

theorem root_decodes {document : Document} {decoder : Located → Decode α} {value : α}
    (given : ∀ root, document.root = some root → Decodes (decoder ⟨root, .root⟩) post)
    (decoded : document.decode decoder = .ok value) : post value :=
  root_gives (fun root found => given root found _) decoded

theorem document_decodes {document : Document} {decoder : Located → Decode α} {value : α}
    (given : ∀ located, Decodes (decoder located) post)
    (decoded : document.decode decoder = .ok value) : post value :=
  root_decodes (fun root _ => given ⟨root, .root⟩) decoded

theorem ofYaml_fits {bytes : List UInt8} {template : Template} (loaded : ofYaml bytes = .ok template) :
    MembersFit 126 template.body :=
  @document_decodes _ (fun template : Template => MembersFit 126 template.body) _ _ _ decode_decodes
    loaded

theorem loaded_fits {format : Format} {bytes : List UInt8} {template : Template}
    (loaded : ofBytes format bytes = .ok template) :
    Fits Json.depthLimit (.object template.body) := by
  have fromJson : ofJson bytes = .ok template → Fits Json.depthLimit (.object template.body) :=
    fun read member found => (ofJson_fits read member found).deeper
  have fromYaml : ofYaml bytes = .ok template → Fits Json.depthLimit (.object template.body) :=
    fun read => ofYaml_fits read
  unfold ofBytes at loaded
  split at loaded
  · exact fromJson (of_mapError loaded)
  · exact fromYaml (of_mapError loaded)
  · split at loaded
    next read =>
      cases loaded
      exact fromYaml read
    next => exact fromJson (of_mapError loaded)

end MessagePress.Proofs.DecodedValues
