import Mathlib.Data.String.Basic
import MessagePress.Proofs.BracePairs
import MessagePress.Proofs.PartialRuns
import MessagePress.Proofs.SignedDecimals
import MessagePress.Proofs.Trimming

/-! The grammar of calls, and which of the calls of a text wins. Calls may overlap and nest;
every pair of opening braces stands for itself, and the search returns the least of all
well-formed calls by function and then by position. -/

namespace MessagePress.Proofs.CallGrammar
open Text Template BracePairs SignedDecimals Trimming PartialRuns

def Blanks (text : List Char) : Prop := ∀ c ∈ text, isAsciiBlank c = true

/-- The call that a name and an argument stand for. -/
inductive Assigned : String → Option (List Char) → Call → Prop
  | guid : Assigned "guid" none .guid
  | uuid : Assigned "uuid" none .uuid
  | now : Assigned "now" none (.now .rfc3339)
  | formatted format : Assigned "now" (some format) (.now (Time.Format.ofText (String.ofList format)))
  | digits : Assigned "rnd" none (.digits 6)
  | counted {text value} (count : SignedDecimal text value) :
      Assigned "rnd" (some text) (.digits (wordCount value))

/-- What stands between the braces of a well-formed call. An argument is trimmed, and an
empty one is none. -/
inductive Spelled : List Char → Call → Prop
  | plain {lead trail name call} (leading : Blanks lead) (trailing : Blanks trail)
      (assigned : Assigned name none call) : Spelled (lead ++ '@' :: (name.toList ++ trail)) call
  | piped {lead gap before argument after name call} (leading : Blanks lead) (apart : Blanks gap)
      (inner : Blanks before) (bare : Bare isAsciiBlank argument) (trailing : Blanks after)
      (assigned : Assigned name (if argument = [] then none else some argument) call) :
      Spelled (lead ++ '@' :: (name.toList ++ (gap ++ '|' :: (before ++ (argument ++ after))))) call

/-- The name and the argument between the braces of a call, whether or not they make one. -/
inductive Parted : List Char → List Char → Option (List Char) → Prop
  | plain {lead name trail} (leading : Blanks lead) (trailing : Blanks trail) (unbarred : '|' ∉ name)
      (last : ∀ c ∈ name.getLast?, isAsciiBlank c = false) : Parted (lead ++ '@' :: (name ++ trail)) name none
  | piped {lead name gap before argument after} (leading : Blanks lead) (apart : Blanks gap) (inner : Blanks before)
      (bare : Bare isAsciiBlank argument) (trailing : Blanks after) (unbarred : '|' ∉ name)
      (last : ∀ c ∈ name.getLast?, isAsciiBlank c = false) :
      Parted (lead ++ '@' :: (name ++ (gap ++ '|' :: (before ++ (argument ++ after))))) name
        (if argument = [] then none else some argument)

/-- A well-formed call of a text, from its opening braces to the first closing ones behind
them, with the bytes it takes up. -/
def Written (text : String) (span : CallSpan) : Prop :=
  ∃ before inside after, text.toList = before ++ '{' :: '{' :: (inside ++ '}' :: '}' :: after) ∧
    PairFree '}' (inside ++ ['}']) ∧ Spelled inside span.call ∧
    span.start = (String.ofList before).utf8ByteSize ∧
    span.stop = span.start + 2 + (String.ofList inside).utf8ByteSize + 2

/-- The order of function, then of position. -/
def Precedes (first second : CallSpan) : Prop :=
  first.call.rank < second.call.rank ∨
    first.call.rank = second.call.rank ∧ first.start ≤ second.start

theorem byteLength_eq (text : List Char) : byteLength text = (String.ofList text).utf8ByteSize := by
  rw [String.utf8ByteSize_ofList]
  induction text with
  | nil => rfl
  | cons c rest ih =>
    rw [byteLength, ih, String.utf8Len_cons, Nat.add_comm]

private theorem Assigned.legal {name argument call} (assigned : Assigned name argument call) :
    name.toList ≠ [] ∧ ∀ c ∈ name.toList, c.isAlphanum = true := by
  cases assigned <;> exact ⟨by decide, List.all_eq_true.mp (by decide)⟩

private theorem alphanum_apart {c : Char} (legal : c.isAlphanum = true) :
    isAsciiBlank c = false ∧ c ≠ '|' := by
  constructor
  · by_contra blank
    simp only [isAsciiBlank, Bool.not_eq_false, Bool.or_eq_true, beq_iff_eq] at blank
    rcases blank with (((rfl | rfl) | rfl) | rfl) | rfl <;> exact absurd legal (by decide)
  · rintro rfl
    exact absurd legal (by decide)

private theorem blank_apart {c : Char} (blank : isAsciiBlank c = true) :
    c ≠ '@' ∧ c ≠ '|' ∧ c ≠ '}' := by
  refine ⟨?_, ?_, ?_⟩ <;> (rintro rfl; exact absurd blank (by decide))

theorem callOf_eq_ok {name : List Char} {argument : Option (List Char)} {call : Call} :
    callOf name argument = .ok call ↔ Assigned (String.ofList name) argument call := by
  constructor
  · intro made
    unfold callOf at made
    split at made
    next same => rw [same]; cases made; exact .guid
    next same => rw [same]; cases made; exact .uuid
    next => cases made
    next => cases made
    next same => rw [same]; cases made; exact .now
    next same => rw [same]; cases made; exact .formatted _
    next same => rw [same]; cases made; exact .digits
    next text same =>
      rw [same]
      obtain ⟨count, counted, rfl⟩ := of_map made
      obtain ⟨value, signed, rfl⟩ := digitCount_eq_ok.mp counted
      exact .counted signed
    next => cases made
  · intro assigned
    generalize same : String.ofList name = label at assigned
    cases assigned with
    | counted signed =>
      have counted := digitCount_eq_ok.mpr ⟨_, signed, rfl⟩
      simp only [callOf, same, counted, Except.map]
    | _ => simp only [callOf, same, Random.defaultDigits]

def named (name : List Char) (argument : Option (List Char)) : Except CallFault Call :=
  if name.isEmpty then .error .emptyName
  else match name.find? fun c => !c.isAlphanum with
    | some found => .error (.unexpectedChar found)
    | none => callOf name argument

private theorem named_eq_ok {name : List Char} {argument : Option (List Char)} {call : Call} :
    named name argument = .ok call ↔ Assigned (String.ofList name) argument call := by
  unfold named
  constructor
  · intro made
    split at made
    next => cases made
    next =>
      split at made
      next => cases made
      next => exact callOf_eq_ok.mp made
  · intro assigned
    obtain ⟨some, legal⟩ := assigned.legal
    rw [String.toList_ofList] at some legal
    have allowed : name.find? (fun c => !c.isAlphanum) = none := by simpa using legal
    rw [if_neg (by simpa using some), allowed]
    exact callOf_eq_ok.mpr assigned

private theorem splitBar_plain {body : List Char} (absent : '|' ∉ body) :
    splitBar body = (body, none) := by
  have whole : body.takeWhile (· != '|') = body :=
    List.takeWhile_eq_self_iff.mpr fun c member => by
      simpa using fun same : c = '|' => absent (same ▸ member)
  simp [splitBar, whole, absent]

private theorem splitBar_piped {label : List Char} (text : List Char) (absent : '|' ∉ label) :
    splitBar (label ++ '|' :: text) = (label, some text) := by
  have apart : ∀ c ∈ label, (c != '|') = true := fun c member => by
    simpa using fun same : c = '|' => absent (same ▸ member)
  have front : (label ++ '|' :: text).takeWhile (· != '|') = label := by
    rw [List.takeWhile_append_of_pos apart]
    simp
  have behind : (label ++ '|' :: text).dropWhile (· != '|') = '|' :: text := by
    rw [List.dropWhile_append_of_pos apart]
    simp
  simp [splitBar, front, behind]

private theorem readBody_plain {body : List Char} (absent : '|' ∉ body) : readBody body = named body none := by
  simp only [readBody, splitBar_plain absent]
  rfl

def argumentOf (text : List Char) : Option (List Char) :=
  if trim isAsciiBlank text = [] then none else some (trim isAsciiBlank text)

private theorem readBody_piped {label text : List Char} (absent : '|' ∉ label) :
    readBody (label ++ '|' :: text) = named (trimEnd isAsciiBlank label) (argumentOf text) := by
  have argument : ((some text).map (trim isAsciiBlank)).filter (fun text => !text.isEmpty) =
      argumentOf text := by
    simp [argumentOf, Option.filter]
  simp only [readBody, splitBar_piped text absent, Option.isSome_some, if_true, argument]
  rfl

private theorem trim_trimEnd (text : List Char) :
    trim isAsciiBlank (trimEnd isAsciiBlank text) = trim isAsciiBlank text := by
  obtain ⟨trail, whole, trailing⟩ := trimEnd_cut isAsciiBlank text
  obtain ⟨lead, rest, inner, leading, following⟩ := trim_cut isAsciiBlank (trimEnd isAsciiBlank text)
  have text_eq : text = lead ++ (trim isAsciiBlank (trimEnd isAsciiBlank text) ++ (rest ++ trail)) := by
    rw [← List.append_assoc, ← List.append_assoc, List.append_assoc lead, ← inner, ← whole]
  have same := trim_eq (trim_bare (trimEnd isAsciiBlank text)) leading
    (fun c member => (List.mem_append.mp member).elim (following c) (trailing c))
  exact same.symm.trans (congrArg (trim isAsciiBlank) text_eq.symm)

private theorem trimEnd_behind {c : Char} (visible : isAsciiBlank c = false) (front text : List Char) :
    trimEnd isAsciiBlank (front ++ c :: text) = front ++ c :: trimEnd isAsciiBlank text := by
  obtain ⟨trail, whole, trailing⟩ := trimEnd_cut isAsciiBlank text
  have kept : trimEnd isAsciiBlank ((front ++ c :: trimEnd isAsciiBlank text) ++ trail) =
      front ++ c :: trimEnd isAsciiBlank text := by
    apply trimEnd_eq trailing
    intro last found
    have ending := @trimEnd_last isAsciiBlank text
    cases core : trimEnd isAsciiBlank text with
    | nil =>
      rw [core, Option.mem_def, List.getLast?_concat] at found
      cases found
      exact visible
    | cons first rest =>
      rw [core] at found ending
      rw [Option.mem_def, List.getLast?_append, List.getLast?_cons_cons, List.getLast?_cons,
        Option.some_or, ← List.getLast?_cons] at found
      exact ending last found
  rwa [List.append_assoc, List.cons_append, ← whole] at kept

private theorem trim_at {lead text : List Char} (leading : Blanks lead) :
    (trim isAsciiBlank (lead ++ '@' :: text)).drop 1 = trimEnd isAsciiBlank text := by
  have started : trimStart isAsciiBlank (lead ++ '@' :: text) = '@' :: text :=
    trimStart_eq leading (by simp [isAsciiBlank])
  rw [trim, started, ← List.nil_append ('@' :: text), trimEnd_behind (by decide)]
  rfl

private theorem not_mem_blanks {text : List Char} (blanks : Blanks text) : '|' ∉ text :=
  fun member => (blank_apart (blanks _ member)).2.1 rfl

theorem readBody_parted {inside name : List Char} {argument : Option (List Char)}
    (parted : Parted inside name argument) :
    readBody ((trim isAsciiBlank inside).drop 1) = named name argument := by
  cases parted with
  | plain leading trailing unbarred last =>
    rw [trim_at leading, trimEnd_eq trailing last, readBody_plain unbarred]
  | @piped lead name gap before argument after leading apart inner bare trailing unbarred last =>
    have absent : '|' ∉ name ++ gap := fun member =>
      (List.mem_append.mp member).elim unbarred (not_mem_blanks apart)
    have argument_eq : argumentOf (trimEnd isAsciiBlank (before ++ (argument ++ after))) =
        if argument = [] then none else some argument := by
      rw [argumentOf, trim_trimEnd, trim_eq bare inner trailing]
    rw [trim_at leading, ← List.append_assoc, trimEnd_behind (by decide), readBody_piped absent, argument_eq,
      trimEnd_eq apart last]

theorem exists_parted {lead text : List Char} (leading : Blanks lead) :
    ∃ name argument, Parted (lead ++ '@' :: text) name argument := by
  by_cases bar : '|' ∈ text
  · obtain ⟨label, argument, rfl, absent⟩ := List.eq_append_cons_of_mem bar
    obtain ⟨gap, label_eq, apart⟩ := trimEnd_cut isAsciiBlank label
    obtain ⟨before, after, argument_eq, inner, trailing⟩ := trim_cut isAsciiBlank argument
    have unbarred : '|' ∉ trimEnd isAsciiBlank label := fun member => by
      rw [label_eq] at absent
      exact absent (List.mem_append_left gap member)
    have parted := Parted.piped leading apart inner (trim_bare argument) trailing unbarred (trimEnd_last label)
    rw [← argument_eq, ← List.append_assoc, ← label_eq] at parted
    exact ⟨_, _, parted⟩
  · obtain ⟨trail, text_eq, trailing⟩ := trimEnd_cut isAsciiBlank text
    have unbarred : '|' ∉ trimEnd isAsciiBlank text := fun member => by
      rw [text_eq] at bar
      exact bar (List.mem_append_left trail member)
    have parted := Parted.plain leading trailing unbarred (trimEnd_last text)
    rw [← text_eq] at parted
    exact ⟨_, _, parted⟩

private theorem Assigned.bare {name : String} {argument : Option (List Char)} {call : Call}
    (assigned : Assigned name argument call) :
    '|' ∉ name.toList ∧ ∀ c ∈ name.toList.getLast?, isAsciiBlank c = false :=
  ⟨fun member => (alphanum_apart (assigned.legal.2 _ member)).2 rfl,
    fun c last => (alphanum_apart (assigned.legal.2 c (List.mem_of_getLast? last))).1⟩

private theorem readBody_eq_ok {lead text : List Char} {call : Call} (leading : Blanks lead) :
    readBody ((trim isAsciiBlank (lead ++ '@' :: text)).drop 1) = .ok call ↔ Spelled (lead ++ '@' :: text) call := by
  constructor
  · intro read
    obtain ⟨name, argument, parted⟩ := @exists_parted lead text leading
    rw [readBody_parted parted, named_eq_ok] at read
    generalize lead ++ '@' :: text = inside at parted
    cases parted with
    | plain leading trailing unbarred last =>
      have spelled := Spelled.plain leading trailing read
      rwa [String.toList_ofList] at spelled
    | piped leading apart inner bare trailing unbarred last =>
      have spelled := Spelled.piped leading apart inner bare trailing read
      rwa [String.toList_ofList] at spelled
  · intro spelled
    generalize lead ++ '@' :: text = inside at spelled
    cases spelled with
    | plain leading trailing assigned =>
      obtain ⟨unbarred, last⟩ := assigned.bare
      rw [readBody_parted (.plain leading trailing unbarred last), named_eq_ok, String.ofList_toList]
      exact assigned
    | piped leading apart inner bare trailing assigned =>
      obtain ⟨unbarred, last⟩ := assigned.bare
      rw [readBody_parted (.piped leading apart inner bare trailing unbarred last), named_eq_ok, String.ofList_toList]
      exact assigned

theorem Spelled.led {inside : List Char} {call : Call} (spelled : Spelled inside call) :
    ∃ lead text, inside = lead ++ '@' :: text ∧ Blanks lead := by
  cases spelled with
  | plain leading trailing assigned => exact ⟨_, _, rfl, leading⟩
  | piped leading apart inner bare trailing assigned => exact ⟨_, _, rfl, leading⟩

theorem at_inside {rest inside after : List Char} (cut : rest = inside ++ '}' :: '}' :: after)
    {lead text : List Char} (leading : Blanks lead) (started : rest = lead ++ '@' :: text) :
    ∃ inner, inside = lead ++ '@' :: inner := by
  rcases List.append_eq_append_iff.mp (cut.symm.trans started) with
    ⟨more, rfl, behind⟩ | ⟨more, rfl, behind⟩
  · cases more with
    | nil => cases behind
    | cons c more =>
      obtain ⟨rfl, -⟩ := List.cons.inj behind
      exact absurd rfl (blank_apart (leading '}' (by simp))).2.2
  · cases more with
    | nil => cases behind
    | cons c more =>
      cases behind
      exact ⟨more, rfl⟩

/-- Behind opening braces a call is read exactly when a well-formed one ends at the first
closing braces. -/
theorem readCall_eq_ok {start : Nat} {rest : List Char} {span : CallSpan} :
    readCall start rest = .ok (some span) ↔
      ∃ inside after, rest = inside ++ '}' :: '}' :: after ∧ PairFree '}' (inside ++ ['}']) ∧
        Spelled inside span.call ∧ span.start = start ∧
        span.stop = start + 2 + byteLength inside + 2 := by
  constructor
  · intro read
    unfold readCall at read
    split at read
    next text started =>
      split at read
      next => cases read
      next inside after cut =>
        obtain ⟨cut, free⟩ := splitPair?_eq_some.mp cut
        obtain ⟨lead, rest_eq, leading⟩ := trimStart_cut isAsciiBlank rest
        obtain ⟨inner, rfl⟩ := at_inside cut leading (started ▸ rest_eq)
        dsimp only at read
        obtain ⟨call, body, made⟩ := of_map read
        cases made
        exact ⟨_, after, cut, free, (readBody_eq_ok leading).mp body, rfl, rfl⟩
    next => cases read
  · rcases span with ⟨call, first, last⟩
    rintro ⟨inside, after, rfl, free, spelled, starts, stops⟩
    dsimp only at spelled starts stops
    subst starts stops
    obtain ⟨lead, inner, rfl, leading⟩ := spelled.led
    have started : trimStart isAsciiBlank ((lead ++ '@' :: inner) ++ '}' :: '}' :: after) =
        '@' :: (inner ++ '}' :: '}' :: after) := by
      rw [List.append_assoc]
      exact trimStart_eq leading (by simp [isAsciiBlank])
    have cut : splitPair? '}' ((lead ++ '@' :: inner) ++ '}' :: '}' :: after) =
        some (lead ++ '@' :: inner, after) := splitPair?_eq_some.mpr ⟨rfl, free⟩
    simp only [readCall, started, cut, (readBody_eq_ok leading).mpr spelled, Except.map]

/-- Opening braces of a text that starts at some byte: where they are and what stands behind them. -/
def openings (start : Nat) : List Char → List (Nat × List Char)
  | [] => []
  | c :: rest =>
    let later := openings (start + c.utf8Size) rest
    if c = '{' ∧ rest.head? = some '{' then (start, rest.drop 1) :: later else later

theorem mem_openings {start place : Nat} {text rest : List Char} :
    (place, rest) ∈ openings start text ↔
      ∃ before, text = before ++ '{' :: '{' :: rest ∧ place = start + byteLength before := by
  induction text generalizing start with
  | nil => simp [openings]
  | cons c text ih =>
    have opened : c = '{' ∧ text = '{' :: rest ↔ (c = '{' ∧ text.head? = some '{') ∧ rest = text.drop 1 := by
      cases text <;> simp [eq_comm, and_assoc]
    have split : (∃ before, c :: text = before ++ '{' :: '{' :: rest ∧ place = start + byteLength before) ↔
        ((c = '{' ∧ text.head? = some '{') ∧ rest = text.drop 1) ∧ place = start ∨
          (place, rest) ∈ openings (start + c.utf8Size) text := by
      rw [ih, ← opened]
      constructor
      · rintro ⟨before, same, rfl⟩
        cases before with
        | nil => exact Or.inl ⟨List.cons.inj same, rfl⟩
        | cons other before =>
          obtain ⟨rfl, behind⟩ := List.cons.inj same
          exact Or.inr ⟨before, behind, by rw [byteLength, Nat.add_assoc]⟩
      · rintro (⟨⟨rfl, rfl⟩, rfl⟩ | ⟨before, rfl, rfl⟩)
        · exact ⟨[], rfl, rfl⟩
        · exact ⟨c :: before, rfl, by rw [byteLength, Nat.add_assoc]⟩
    rw [split, openings]
    split
    next braces => simp [braces, and_comm]
    next other => simp [other]

theorem openings_ordered {start : Nat} {text : List Char} :
    (openings start text).Pairwise fun first second => first.1 < second.1 := by
  induction text generalizing start with
  | nil => exact List.Pairwise.nil
  | cons c text ih =>
    rw [openings]
    split
    next =>
      refine List.pairwise_cons.mpr ⟨?_, ih⟩
      rintro ⟨place, rest⟩ member
      obtain ⟨before, -, rfl⟩ := mem_openings.mp member
      have size := c.utf8Size_pos
      dsimp only
      omega
    next => exact ih

/-- A text is read once behind each pair of opening braces. -/
theorem readCallsFrom_eq (start : Nat) (text : List Char) :
    readCallsFrom start text = (openings start text).map fun opening => readCall opening.1 opening.2 := by
  induction text generalizing start with
  | nil => rfl
  | cons c text ih =>
    rw [readCallsFrom, openings, ih]
    split <;> rfl

def spans (outcomes : List (Except CallFault (Option CallSpan))) : List CallSpan :=
  outcomes.filterMap fun outcome => outcome.toOption.join

private theorem mem_spans {outcomes : List (Except CallFault (Option CallSpan))} {span : CallSpan} :
    span ∈ spans outcomes ↔ .ok (some span) ∈ outcomes := by
  simp only [spans, List.mem_filterMap]
  constructor
  · rintro ⟨outcome, member, found⟩
    rcases outcome with fault | _ | other
    · cases found
    · cases found
    · cases found
      exact member
  · exact fun member => ⟨_, member, rfl⟩

theorem mem_spans_readCalls {text : String} {span : CallSpan} :
    span ∈ spans (readCalls text) ↔ Written text span := by
  rw [mem_spans, readCalls, readCallsFrom_eq, List.mem_map]
  simp only [Written, ← byteLength_eq]
  constructor
  · rintro ⟨⟨place, rest⟩, member, read⟩
    obtain ⟨before, same, rfl⟩ := mem_openings.mp member
    obtain ⟨inside, after, rfl, free, spelled, starts, stops⟩ := readCall_eq_ok.mp read
    rw [Nat.zero_add] at starts
    exact ⟨before, inside, after, same, free, spelled, starts, by rw [stops, starts, Nat.zero_add]⟩
  · rintro ⟨before, inside, after, same, free, spelled, starts, stops⟩
    have place : span.start = 0 + byteLength before := by rw [starts, Nat.zero_add]
    have read := readCall_eq_ok.mpr ⟨inside, after, rfl, free, spelled, rfl, stops⟩
    exact ⟨(span.start, _), mem_openings.mpr ⟨before, same, place⟩, read⟩

private theorem spans_ordered {start : Nat} {text : List Char} :
    (spans (readCallsFrom start text)).Pairwise fun first second => first.start < second.start := by
  rw [readCallsFrom_eq, spans, List.filterMap_map]
  refine openings_ordered.filterMap _ ?_
  rintro opening later before first one second other
  have starts : ∀ {place : Nat × List Char} {span : CallSpan},
      (readCall place.1 place.2).toOption.join = some span → span.start = place.1 := by
    intro place span found
    have read : readCall place.1 place.2 = .ok (some span) := by
      rcases outcome : readCall place.1 place.2 with fault | _ | other <;> rw [outcome] at found <;> cases found
      rfl
    obtain ⟨-, -, -, -, -, starts, -⟩ := readCall_eq_ok.mp read
    exact starts
  rw [starts one, starts other]
  exact before

/-- Calls are read at different positions, so the position identifies the call. -/
private theorem spans_start {text : String} {first second : CallSpan}
    (one : first ∈ spans (readCalls text)) (other : second ∈ spans (readCalls text))
    (starts : first.start = second.start) : first = second := by
  have ordered : (spans (readCalls text)).Pairwise fun first second => first.start < second.start :=
    spans_ordered
  have apart : ∀ first ∈ spans (readCalls text), ∀ second ∈ spans (readCalls text),
      first.start = second.start → first = second := by
    refine List.Pairwise.forall_of_forall_of_flip (fun _ _ _ => rfl) (ordered.imp ?_)
      (ordered.imp ?_)
    · exact fun before same => absurd same (Nat.ne_of_lt before)
    · exact fun before same => absurd same (Nat.ne_of_gt before)
  exact apart first one second other starts

theorem Precedes.refl (span : CallSpan) : Precedes span span := Or.inr ⟨rfl, Nat.le_refl _⟩

theorem Precedes.trans {first second third : CallSpan} (front : Precedes first second)
    (back : Precedes second third) : Precedes first third := by
  unfold Precedes at *
  omega

private theorem winner_precedes {best : Option CallSpan}
    {outcomes : List (Except CallFault (Option CallSpan))}
    (ordered : (best.toList ++ spans outcomes).Pairwise
      fun first second => first.start < second.start) :
    (outcomes.foldl winner best = none ↔ best.toList ++ spans outcomes = []) ∧
      ∀ span, outcomes.foldl winner best = some span →
        span ∈ best.toList ++ spans outcomes ∧
          ∀ other ∈ best.toList ++ spans outcomes, Precedes span other := by
  induction outcomes generalizing best with
  | nil =>
    cases best with
    | none => simp [spans]
    | some current => simp [spans, Precedes.refl]
  | cons outcome outcomes ih =>
    rcases outcome with fault | _ | span
    · exact ih ordered
    · exact ih ordered
    · have seen : spans (.ok (some span) :: outcomes) = span :: spans outcomes := rfl
      rw [seen] at ordered ⊢
      cases best with
      | none => exact @ih (some span) ordered
      | some current =>
        rw [Option.toList_some, List.singleton_append] at ordered ⊢
        rw [List.foldl_cons]
        obtain ⟨before, after⟩ := List.pairwise_cons.mp ordered
        by_cases wins : span.call.rank < current.call.rank
        · rw [winner, if_pos wins]
          obtain ⟨none_iff, least⟩ := @ih (some span) after
          refine ⟨by simp [none_iff], fun found same => ?_⟩
          obtain ⟨member, precedes⟩ := least found same
          refine ⟨List.mem_cons_of_mem current member, ?_⟩
          exact List.forall_mem_cons.mpr
            ⟨(precedes span (List.mem_cons_self ..)).trans (Or.inl wins), precedes⟩
        · rw [winner, if_neg wins]
          have kept : (current :: spans outcomes).Pairwise
              fun first second => first.start < second.start :=
            List.pairwise_cons.mpr ⟨fun other member => before other (List.mem_cons_of_mem span member),
              (List.pairwise_cons.mp after).2⟩
          obtain ⟨none_iff, least⟩ := @ih (some current) kept
          refine ⟨by simp [none_iff], fun found same => ?_⟩
          obtain ⟨member, precedes⟩ := least found same
          have first : Precedes current span := by
            have starts := before span (List.mem_cons_self ..)
            unfold Precedes
            omega
          refine ⟨?_, ?_⟩
          · rcases List.mem_cons.mp member with rfl | later
            · exact List.mem_cons_self ..
            · exact List.mem_cons_of_mem current (List.mem_cons_of_mem span later)
          · obtain ⟨own, rest⟩ := List.forall_mem_cons.mp precedes
            exact List.forall_mem_cons.mpr ⟨own, List.forall_mem_cons.mpr ⟨own.trans first, rest⟩⟩

theorem findCall_eq_none {text : String} : findCall text = none ↔ ∀ span, ¬Written text span := by
  rw [findCall, (@winner_precedes none (readCalls text) spans_ordered).1]
  simp [List.eq_nil_iff_forall_not_mem, mem_spans_readCalls]

end MessagePress.Proofs.CallGrammar
