import MessagePress.Proofs.CallGrammar
import MessagePress.Template.Evaluation

/-! What is said of malformed calls. Braces with an at sign open a call, which is read or has one fault,
the first that the order of the checks meets. All faults of a text are logged in the order of their
places; a text without a call is explained by the first of them. -/

namespace MessagePress.Proofs.CallDiagnostics
open Text Template BracePairs Trimming SignedDecimals CallGrammar

variable {rest inside name : List Char} {argument : Option (List Char)} {start : Nat} {fault : CallFault}

/-- What is behind opening braces is a call, well-formed or not, once an at sign follows the blanks. -/
def Calls (rest : List Char) : Prop := ∃ lead behind, Blanks lead ∧ rest = lead ++ '@' :: behind

def functions : List String := ["guid", "uuid", "now", "rnd"]

/-- Why a name and an argument make no call. -/
inductive Refused : List Char → Option (List Char) → CallFault → Prop
  | emptyName (argument : Option (List Char)) : Refused [] argument .emptyName
  | unexpectedChar {front : List Char} {found : Char} (behind : List Char) (argument : Option (List Char))
      (legal : ∀ c ∈ front, c.isAlphanum = true) (illegal : found.isAlphanum = false) :
      Refused (front ++ found :: behind) argument (.unexpectedChar found)
  | unknownFunction {name : List Char} (argument : Option (List Char)) (some : name ≠ [])
      (legal : ∀ c ∈ name, c.isAlphanum = true) (unknown : String.ofList name ∉ functions) :
      Refused name argument (.unknownFunction (String.ofList name))
  | unexpectedArgument {name : String} (argument : List Char) (plain : name = "guid" ∨ name = "uuid") :
      Refused name.toList (some argument) (.unexpectedArgument name)
  | invalidDigits {text : List Char} (uncounted : ∀ value, ¬SignedDecimal text value) :
      Refused "rnd".toList (some text) (.invalidDigits (String.ofList text))

/-- What is wrong with a call behind the braces that open it at some byte. -/
inductive Malformed (start : Nat) : List Char → CallFault → Prop
  | unterminated {rest : List Char} (calls : Calls rest) (free : PairFree '}' rest) :
      Malformed start rest (.unterminated start)
  | refused {inside name : List Char} {argument : Option (List Char)} {fault : CallFault} (after : List Char)
      (closed : PairFree '}' (inside ++ ['}'])) (parted : Parted inside name argument)
      (refused : Refused name argument fault) : Malformed start (inside ++ '}' :: '}' :: after) fault

theorem digitCount_eq_error {digits : List Char} : digitCount digits = .error fault ↔
    (∀ value, ¬SignedDecimal digits value) ∧ fault = .invalidDigits (String.ofList digits) := by
  have cause : ∀ other, digitCount digits = .error other → other = .invalidDigits (String.ofList digits) := by
    intro other refused
    unfold digitCount at refused
    split at refused
    · cases refused
    · split at refused
      all_goals
        split at refused
        · cases refused
          rfl
        · cases refused
  constructor
  · intro refused
    refine ⟨fun value signed => ?_, cause fault refused⟩
    rw [digitCount_eq_ok.mpr ⟨value, signed, rfl⟩] at refused
    cases refused
  · rintro ⟨uncounted, rfl⟩
    cases counted : digitCount digits with
    | error other => rw [cause other counted]
    | ok count =>
      obtain ⟨value, signed, -⟩ := digitCount_eq_ok.mp counted
      exact absurd signed (uncounted value)

theorem callOf_unknown (argument : Option (List Char)) (unknown : String.ofList name ∉ functions) :
    callOf name argument = .error (.unknownFunction (String.ofList name)) := by
  unfold callOf
  split
  all_goals first
    | rfl
    | exact absurd (by simp_all [functions]) unknown

theorem callOf_refused (some : name ≠ []) (legal : ∀ c ∈ name, c.isAlphanum = true)
    (refused : callOf name argument = .error fault) : Refused name argument fault := by
  by_cases known : String.ofList name ∈ functions
  · have spelled {label : String} (same : String.ofList name = label) : name = label.toList := by
      rw [← same, String.toList_ofList]
    simp only [functions, List.mem_cons, List.not_mem_nil, or_false] at known
    rcases known with same | same | same | same <;> obtain rfl := spelled same <;> cases argument
    case inl.none => cases refused
    case inl.some argument =>
      cases refused
      exact .unexpectedArgument argument (Or.inl rfl)
    case inr.inl.none => cases refused
    case inr.inl.some argument =>
      cases refused
      exact .unexpectedArgument argument (Or.inr rfl)
    case inr.inr.inl.none => cases refused
    case inr.inr.inl.some argument => cases refused
    case inr.inr.inr.none => cases refused
    case inr.inr.inr.some text =>
      have mapped : (digitCount text).map Call.digits = .error fault := refused
      cases counted : digitCount text with
      | ok count =>
        rw [counted] at mapped
        cases mapped
      | error other =>
        rw [counted] at mapped
        cases mapped
        obtain ⟨uncounted, rfl⟩ := digitCount_eq_error.mp counted
        exact .invalidDigits uncounted
  · rw [callOf_unknown argument known] at refused
    cases refused
    exact .unknownFunction argument some legal known

theorem find?_illegal {front : List Char} {found : Char} (behind : List Char)
    (legal : ∀ c ∈ front, c.isAlphanum = true) (illegal : found.isAlphanum = false) :
    (front ++ found :: behind).find? (fun c => !c.isAlphanum) = some found :=
  List.find?_eq_some_iff_append.mpr ⟨by simp [illegal], front, behind, rfl, by simpa using legal⟩

theorem named_eq_error : named name argument = .error fault ↔ Refused name argument fault := by
  constructor
  · intro refused
    unfold named at refused
    cases name with
    | nil =>
      cases refused
      exact .emptyName argument
    | cons c name =>
      rw [if_neg (by simp)] at refused
      cases odd : (c :: name).find? fun c => !c.isAlphanum with
      | none =>
        have legal : ∀ d ∈ c :: name, d.isAlphanum = true := by simpa using odd
        rw [odd] at refused
        exact callOf_refused (List.cons_ne_nil c name) legal refused
      | some found =>
        rw [odd] at refused
        obtain ⟨illegal, front, behind, same, legal⟩ := List.find?_eq_some_iff_append.mp odd
        rw [Bool.not_eq_true'] at illegal
        simp only [Bool.not_not] at legal
        rw [same]
        cases refused
        exact .unexpectedChar behind argument legal illegal
  · intro refused
    cases refused with
    | emptyName => rfl
    | unexpectedChar behind _ legal illegal => rw [named, if_neg (by simp), find?_illegal behind legal illegal]
    | unknownFunction _ some legal unknown =>
      have allowed : name.find? (fun c => !c.isAlphanum) = none := by simpa using legal
      rw [named, if_neg (by simpa using some), allowed]
      exact callOf_unknown argument unknown
    | unexpectedArgument argument plain => rcases plain with rfl | rfl <;> rfl
    | @invalidDigits text uncounted =>
      have mapped : named "rnd".toList (some text) = (digitCount text).map Call.digits := rfl
      rw [mapped, digitCount_eq_error.mpr ⟨uncounted, rfl⟩]
      rfl

theorem calls_iff : Calls rest ↔ ∃ behind, trimStart isAsciiBlank rest = '@' :: behind := by
  constructor
  · rintro ⟨lead, behind, leading, rfl⟩
    exact ⟨behind, trimStart_eq leading (by simp [isAsciiBlank])⟩
  · rintro ⟨behind, started⟩
    obtain ⟨lead, rest_eq, leading⟩ := trimStart_cut isAsciiBlank rest
    rw [started] at rest_eq
    exact ⟨lead, behind, leading, rest_eq⟩

theorem Parted.calls (after : List Char) (parted : Parted inside name argument) :
    Calls (inside ++ after) := by
  cases parted with
  | plain leading => exact ⟨_, _, leading, by rw [List.append_assoc, List.cons_append]⟩
  | piped leading => exact ⟨_, _, leading, by rw [List.append_assoc, List.cons_append]⟩

theorem Malformed.calls (malformed : Malformed start rest fault) : Calls rest := by
  cases malformed with
  | unterminated calls free => exact calls
  | refused after closed parted refused => exact Parted.calls _ parted

theorem readCall_eq_none : readCall start rest = .ok none ↔ ¬Calls rest := by
  rw [calls_iff]
  unfold readCall
  split
  next behind started =>
    simp only [started, List.cons.injEq, true_and, exists_eq', not_true_eq_false, iff_false]
    split
    next => simp
    next inside after cut =>
      cases readBody ((trim isAsciiBlank inside).drop 1) <;> simp [Except.map]
  next foreign => simpa using foreign

/-- Behind opening braces a call is refused exactly when it is malformed. -/
theorem readCall_eq_error : readCall start rest = .error fault ↔ Malformed start rest fault := by
  constructor
  · intro refused
    have calls : Calls rest := by
      by_contra foreign
      rw [readCall_eq_none.mpr foreign] at refused
      cases refused
    obtain ⟨behind, started⟩ := calls_iff.mp calls
    simp only [readCall, started] at refused
    cases cut : splitPair? '}' rest with
    | none =>
      rw [cut] at refused
      cases refused
      exact .unterminated calls (splitPair?_eq_none.mp cut)
    | some parts =>
      obtain ⟨inside, after⟩ := parts
      rw [cut] at refused
      obtain ⟨same, closed⟩ := splitPair?_eq_some.mp cut
      obtain ⟨lead, text, leading, rest_eq⟩ := calls
      obtain ⟨inner, rfl⟩ := at_inside same leading rest_eq
      obtain ⟨name, argument, parted⟩ := @exists_parted lead inner leading
      simp only [readBody_parted parted] at refused
      cases made : named name argument with
      | ok call =>
        rw [made] at refused
        cases refused
      | error other =>
        rw [made] at refused
        cases refused
        rw [same]
        exact .refused after closed parted (named_eq_error.mp made)
  · intro malformed
    obtain ⟨behind, started⟩ := calls_iff.mp malformed.calls
    simp only [readCall, started]
    cases malformed with
    | unterminated calls free => rw [splitPair?_eq_none.mpr free]
    | refused after closed parted refused =>
      rw [splitPair?_eq_some.mpr ⟨rfl, closed⟩]
      simp only [readBody_parted parted, named_eq_error.mpr refused]
      rfl

def faultOf : Except CallFault (Option CallSpan) → Option CallFault
  | .error fault => some fault
  | .ok _ => none

theorem faultOf_eq_some {outcome : Except CallFault (Option CallSpan)} :
    faultOf outcome = some fault ↔ outcome = .error fault := by
  cases outcome <;> simp [faultOf]

/-- The faults of a text from left to right, with their places. -/
def failures (text : String) : List (Nat × CallFault) :=
  (openings 0 text.toList).filterMap fun opening => (faultOf (readCall opening.1 opening.2)).map (opening.1, ·)

/-- Braces at some byte of a text open a call, well-formed or not. -/
def Opens (text : String) (start : Nat) (rest : List Char) : Prop :=
  ∃ before, text.toList = before ++ '{' :: '{' :: rest ∧ start = (String.ofList before).utf8ByteSize ∧ Calls rest

theorem opens_iff {text : String} :
    Opens text start rest ↔ (start, rest) ∈ openings 0 text.toList ∧ Calls rest := by
  simp only [Opens, mem_openings, byteLength_eq, Nat.zero_add, ← exists_and_right, and_assoc]

theorem mem_failures {text : String} :
    (start, fault) ∈ failures text ↔ ∃ rest, Opens text start rest ∧ Malformed start rest fault := by
  simp only [failures, List.mem_filterMap, Option.map_eq_some_iff, faultOf_eq_some, readCall_eq_error]
  constructor
  · rintro ⟨⟨place, rest⟩, member, found, malformed, same⟩
    cases same
    exact ⟨rest, opens_iff.mpr ⟨member, malformed.calls⟩, malformed⟩
  · rintro ⟨rest, opens, malformed⟩
    exact ⟨(start, rest), (opens_iff.mp opens).1, fault, malformed, rfl⟩

theorem failures_ordered (text : String) :
    (failures text).Pairwise fun first second => first.1 < second.1 := by
  refine openings_ordered.filterMap _ ?_
  rintro opening later before first one second other
  obtain ⟨-, -, rfl⟩ := Option.map_eq_some_iff.mp one
  obtain ⟨-, -, rfl⟩ := Option.map_eq_some_iff.mp other
  exact before

private theorem faults_eq (text : String) :
    (openings 0 text.toList).filterMap (fun opening => faultOf (readCall opening.1 opening.2)) =
      (failures text).map Prod.snd := by
  rw [failures, List.map_filterMap]
  apply List.filterMap_congr
  rintro ⟨place, rest⟩ -
  simp

theorem valueLog_text (text : String) :
    valueLog (.text text) = (failures text).map fun failure => malformedCallLine text failure.2 := by
  have lenient : callFaults text = (readCalls text).filterMap faultOf := rfl
  rw [valueLog, lenient, readCalls, readCallsFrom_eq, List.filterMap_map]
  exact (congrArg (List.map (malformedCallLine text)) (faults_eq text)).trans List.map_map

/-- The diagnostic scan stops at the first fault that the lenient scan logs. -/
theorem checkCallsFrom_eq (start : Nat) (text : List Char) :
    checkCallsFrom start text =
      (((openings start text).filterMap fun opening => faultOf (readCall opening.1 opening.2)).head?.elim
        (.ok ()) .error) := by
  induction text generalizing start with
  | nil => rfl
  | cons c text ih =>
    rw [checkCallsFrom, openings]
    split
    next =>
      rw [List.filterMap_cons]
      cases read : readCall start (text.drop 1) with
      | error fault => rfl
      | ok found => exact ih (start + c.utf8Size)
    next => exact ih (start + c.utf8Size)

theorem parseCall_eq (text : String) :
    parseCall text = (findCall text).elim (.error ((failures text).head?.elim .noCall Prod.snd)) .ok := by
  rw [parseCall, checkCallsFrom_eq, faults_eq]
  cases findCall text with
  | some span => rfl
  | none => cases failures text <;> rfl

theorem Opens.malformed {text : String} (opens : Opens text start rest) (none : findCall text = none) :
    ∃ fault, Malformed start rest fault := by
  rcases outcome : readCall start rest with fault | _ | span
  · exact ⟨fault, readCall_eq_error.mp outcome⟩
  · exact absurd (opens_iff.mp opens).2 (readCall_eq_none.mp outcome)
  · obtain ⟨before, same, place, -⟩ := opens
    obtain ⟨inside, after, rfl, closed, spelled, starts, stops⟩ := readCall_eq_ok.mp outcome
    rw [byteLength_eq, ← starts] at stops
    exact absurd ⟨before, inside, after, same, closed, spelled, starts.trans place, stops⟩
      (findCall_eq_none.mp none span)

theorem failures_head {text : String} (opens : Opens text start rest)
    (leftmost : ∀ place behind, Opens text place behind → start ≤ place) (malformed : Malformed start rest fault) :
    (failures text).head? = some (start, fault) := by
  have member : (start, fault) ∈ failures text := mem_failures.mpr ⟨rest, opens, malformed⟩
  have ordered := failures_ordered text
  cases listed : failures text with
  | nil =>
    rw [listed] at member
    cases member
  | cons first later =>
    obtain ⟨behind, opened, -⟩ := mem_failures.mp (show (first.1, first.2) ∈ failures text by simp [listed])
    have least := leftmost first.1 behind opened
    rw [listed] at member ordered
    rcases List.mem_cons.mp member with same | beyond
    · rw [same, List.head?_cons]
    · have before := (List.pairwise_cons.mp ordered).1 _ beyond
      dsimp only at before
      omega

theorem Malformed.ne_noCall (malformed : Malformed start rest fault) : fault ≠ .noCall := by
  rintro rfl
  cases malformed with
  | refused after closed parted refused => cases refused

theorem failures_eq_nil {text : String} (none : findCall text = none) :
    failures text = [] ↔ ∀ start rest, ¬Opens text start rest := by
  constructor
  · intro empty start rest opens
    obtain ⟨fault, malformed⟩ := opens.malformed none
    have member := mem_failures.mpr ⟨rest, opens, malformed⟩
    rw [empty] at member
    cases member
  · intro closed
    refine List.eq_nil_iff_forall_not_mem.mpr ?_
    rintro ⟨start, fault⟩ member
    obtain ⟨rest, opens, -⟩ := mem_failures.mp member
    exact closed start rest opens

/-- Without a call to find, the explanation is the first failure, if there is one. -/
theorem parseCall_none {text : String} (none : findCall text = none) :
    parseCall text = .error .noCall ∧ failures text = [] ∨
      ∃ start fault later, failures text = (start, fault) :: later ∧ fault ≠ .noCall ∧
        parseCall text = .error fault := by
  rw [parseCall_eq, none]
  cases listed : failures text with
  | nil => exact Or.inl ⟨rfl, rfl⟩
  | cons first later =>
    obtain ⟨start, fault⟩ := first
    obtain ⟨rest, -, malformed⟩ := mem_failures.mp (show (start, fault) ∈ failures text by simp [listed])
    exact Or.inr ⟨start, fault, later, rfl, malformed.ne_noCall, rfl⟩

theorem parseCall_eq_ok {text : String} {span : CallSpan} :
    parseCall text = .ok span ↔ findCall text = some span := by
  rw [parseCall_eq]
  cases findCall text <;> simp

theorem Written.opens {text : String} {span : CallSpan} (written : Written text span) :
    ∃ rest, Opens text span.start rest := by
  obtain ⟨before, inside, after, same, -, spelled, place, -⟩ := written
  obtain ⟨lead, behind, rfl, leading⟩ := spelled.led
  exact ⟨_, before, same, place, lead, _, leading, by rw [List.append_assoc, List.cons_append]⟩

theorem parseCall_noCall {text : String} :
    parseCall text = .error .noCall ↔ ∀ start rest, ¬Opens text start rest := by
  cases call : findCall text with
  | none =>
    rw [← failures_eq_nil call]
    obtain ⟨explained, empty⟩ | ⟨start, fault, later, listed, some, explained⟩ := parseCall_none call
    · exact iff_of_true explained empty
    · refine iff_of_false ?_ (by simp [listed])
      rw [explained]
      exact fun same => some (Except.error.inj same)
  | some span =>
    refine iff_of_false ?_ fun closed => ?_
    · rw [parseCall_eq_ok.mpr call]
      simp
    · obtain ⟨first, written⟩ : ∃ first, Written text first := by
        by_contra absent
        rw [findCall_eq_none.mpr (not_exists.mp absent)] at call
        cases call
      obtain ⟨rest, opens⟩ := Written.opens written
      exact closed first.start rest opens

/-- Of two malformed calls the first explains the text. -/
example : parseCall "a\x7b\x7b@uuid|4\x7d\x7d \x7b\x7b@\x7d\x7d" = .error (.unexpectedArgument "uuid") := by decide

end MessagePress.Proofs.CallDiagnostics
