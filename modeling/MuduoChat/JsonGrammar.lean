import MuduoChat.JsonParser

/-!
The grammar of JSON, first over the tokens that scan finds and then over the bytes, and what
json::parse of CHAT/thirdparty/json.hpp is against it: the loop with its stack of states accepts
exactly the texts of the grammar and builds the value that the grammar gives them. A later member
of an object replaces an earlier one with the same key.
-/

namespace MuduoChat.JsonGrammar
open JsonValue
open JsonLexer (Token Lexeme Blank Body Number Stops scan scanFirst skip_bom)
open JsonParser
open SortedMap (assign assignAll)

variable {F : Type}

/-- A value, or what stands in an array or an object behind a value up to the closing bracket. -/
inductive Phrase (F : Type) where
  | value (v : Value F)
  | elements (values : List (Value F))
  | members (assignments : List (Bytes × Value F))

section Tokens
variable (floats : Floats F)

/-- The value that a token is. -/
def atom : Token F → Option (Value F)
  | .literal_true => some (.boolean true)
  | .literal_false => some (.boolean false)
  | .literal_null => some .null
  | .value_string val => some (.string val)
  | .value_unsigned val => some (.number_unsigned val)
  | .value_integer val => some (.number_integer val)
  | .value_float res => if floats.isfinite res then some (.number_float res) else none
  | _ => none

/-- The phrase is read from the input, and the rest is left. -/
inductive Reads : Phrase F → Bytes → Bytes → Prop where
  | atom (input rest : Bytes) (token : Token F) (v : Value F) : scan floats input = (token, rest) →
      atom floats token = some v →
      Reads (.value v) input rest
  | emptyArray (input first rest : Bytes) : scan floats input = (.begin_array, first) →
      scan floats first = (.end_array, rest) → Reads (.value (.array [])) input rest
  | array (input first second rest : Bytes) (v : Value F) (values : List (Value F)) :
      scan floats input = (.begin_array, first) → Reads (.value v) first second →
        Reads (.elements values) second rest →
      Reads (.value (.array (v :: values))) input rest
  | endArray (input rest : Bytes) : scan floats input = (.end_array, rest) →
      Reads (.elements []) input rest
  | element (input first second rest : Bytes) (v : Value F) (values : List (Value F)) :
      scan floats input = (.value_separator, first) → Reads (.value v) first second →
        Reads (.elements values) second rest →
      Reads (.elements (v :: values)) input rest
  | emptyObject (input first rest : Bytes) : scan floats input = (.begin_object, first) →
      scan floats first = (.end_object, rest) → Reads (.value (.object [])) input rest
  | object (input first second third fourth rest key : Bytes) (v : Value F)
      (assignments : List (Bytes × Value F)) :
      scan floats input = (.begin_object, first) → scan floats first = (.value_string key, second) →
      scan floats second = (.name_separator, third) → Reads (.value v) third fourth →
        Reads (.members assignments) fourth rest →
      Reads (.value (.object (assignAll ((key, v) :: assignments) []))) input rest
  | endObject (input rest : Bytes) : scan floats input = (.end_object, rest) →
      Reads (.members []) input rest
  | member (input first second third fourth rest key : Bytes) (v : Value F)
      (assignments : List (Bytes × Value F)) :
      scan floats input = (.value_separator, first) →
        scan floats first = (.value_string key, second) →
      scan floats second = (.name_separator, third) → Reads (.value v) third fourth →
        Reads (.members assignments) fourth rest →
      Reads (.members ((key, v) :: assignments)) input rest

/-! The loop, from the point where it wants a value and from the one where it has just got one. -/

/-- What is left of the input, and the value. -/
def result : Except ParseError (Parser F) → Except ParseError (Bytes × Value F)
  | .error error => .error error
  | .ok parser => .ok (parser.input, parser.dom.root)

def finish : Pass F → Except ParseError (Bytes × Value F)
  | .throws error => .error error
  | .finished parser => .ok (parser.input, parser.dom.root)
  | .continues skip parser => result (sax_parse_internal floats skip parser)

theorem result_loop (skip : Bool) (parser : Parser F) :
    result (sax_parse_internal floats skip parser) = finish floats
      (JsonParser.pass floats skip parser) := by
  rw [sax_parse_internal]
  split <;> rename_i continued <;> exact (congrArg (finish floats) continued).symm

def wanting (input : Bytes) (states : List Bool) (dom : Dom F) : Except ParseError
    (Bytes × Value F) :=
  result (sax_parse_internal floats false (get_token floats ⟨input, .end_of_input, states, dom⟩))

def having (input : Bytes) (states : List Bool) (dom : Dom F) : Except ParseError
    (Bytes × Value F) :=
  finish floats (evaluateState floats ⟨input, .end_of_input, states, dom⟩)

/-- The token before does not matter. -/
theorem having_token (parser : Parser F) :
    finish floats (evaluateState floats parser) =
      having floats parser.input parser.states parser.dom := by
  obtain ⟨input, last_token, states, dom⟩ := parser
  cases states with
  | nil => rfl
  | cons state outer => cases state <;> rfl

theorem wanting_token (parser : Parser F) :
    result (sax_parse_internal floats false (get_token floats parser)) =
      wanting floats parser.input parser.states parser.dom :=
  rfl

theorem skipping_token (parser : Parser F) :
    result (sax_parse_internal floats true parser) =
      having floats parser.input parser.states parser.dom := by
  rw [result_loop]
  exact having_token floats parser

theorem get_token_scan (input rest : Bytes) (token last_token : Token F) (states : List Bool)
    (dom : Dom F)
    (scanned : scan floats input = (token, rest)) :
    get_token floats ⟨input, last_token, states, dom⟩ = ⟨rest, token, states, dom⟩ := by
  simp only [get_token, scanned]

theorem wanting_pass (input rest : Bytes) (token : Token F) (states : List Bool) (dom : Dom F)
    (scanned : scan floats input = (token, rest)) :
    wanting floats input states dom = finish floats
      (JsonParser.pass floats false ⟨rest, token, states, dom⟩) := by
  rw [wanting, result_loop, get_token_scan floats _ _ _ _ _ _ scanned]

theorem pass_atom (rest : Bytes) (token : Token F) (v : Value F) (states : List Bool) (dom : Dom F)
    (known : atom floats token = some v) :
    finish floats (JsonParser.pass floats false ⟨rest, token, states, dom⟩) =
      having floats rest states
      (dom.handle_value v) := by
  cases token with
  | value_float res =>
      simp only [atom] at known
      split at known
      · rename_i finite
        cases known
        simp only [JsonParser.pass, Bool.false_eq_true, if_false, finite, if_true]
        exact having_token floats _
      · cases known
  | literal_true | literal_false | literal_null | value_string _ | value_unsigned _
  | value_integer _ =>
      cases known
      exact having_token floats _
  | begin_array | begin_object | end_array | end_object | name_separator | value_separator
  | parse_error _ | end_of_input =>
      cases known

/-- The null that operator[] leaves at a new key is overwritten by the value. -/
theorem key_add (val held : Bytes) (v : Value F) (members : List (Bytes × Value F)) (root : Value F)
    (outer : List (Container F)) :
    (Dom.key val ⟨root, .object members held :: outer⟩).handle_value v =
      ⟨root, .object (assign val v members) val :: outer⟩ := by
  simp only [Dom.key, Dom.handle_value, Container.add]
  split
  · rfl
  · rw [SortedMap.assign_assign]

/-- What the loop does over a phrase. -/
def Runs (input rest : Bytes) : Phrase F → Prop
  | .value v => ∀ states dom, wanting floats input states dom = having floats rest states
      (dom.handle_value v)
  | .elements values => ∀ states root outer done, having floats input (true :: states)
      ⟨root, .array done :: outer⟩ =
      having floats rest states (Dom.handle_value (.array (done ++ values)) ⟨root, outer⟩)
  | .members assignments => ∀ states root outer done held,
      having floats input (false :: states) ⟨root, .object done held :: outer⟩ =
        having floats rest states (Dom.handle_value (.object (assignAll assignments done))
          ⟨root, outer⟩)

theorem value_opens (v : Value F) (input rest : Bytes)
    (reads : Reads floats (.value v) input rest) :
    (scan floats input).1 ≠ .end_array := by
  intro closed
  cases reads with
  | atom _ _ token _ scanned known =>
      rw [scanned] at closed
      obtain rfl : token = .end_array := closed
      cases known
  | emptyArray _ _ _ opened => simp [opened] at closed
  | array _ _ _ _ _ _ opened => simp [opened] at closed
  | emptyObject _ _ _ opened => simp [opened] at closed
  | object _ _ _ _ _ _ _ _ _ opened => simp [opened] at closed

/-- After the opening bracket of an array that is not empty. -/
theorem pass_array (rest : Bytes) (states : List Bool) (dom : Dom F)
    (opens : (scan floats rest).1 ≠ .end_array) :
    finish floats (JsonParser.pass floats false ⟨rest, .begin_array, states, dom⟩) =
      wanting floats rest (true :: states) dom.start_array := by
  simp only [JsonParser.pass, Bool.false_eq_true, if_false]
  split
  · rename_i closed
    exact absurd closed opens
  · rfl

theorem reads_runs (phrase : Phrase F) (input rest : Bytes)
    (reads : Reads floats phrase input rest) :
    Runs floats input rest phrase := by
  -- for each constructor the tokens it names are the ones the loop asks for, in the same order
  induction reads with
  | atom input rest token v scanned known =>
      intro states dom
      rw [wanting_pass floats _ _ _ _ _ scanned, pass_atom floats _ _ _ _ _ known]
  | emptyArray input first rest opened closed =>
      intro states dom
      rw [wanting_pass floats _ _ _ _ _ opened]
      simp only [JsonParser.pass, Bool.false_eq_true, if_false,
        get_token_scan floats _ _ _ _ _ _ closed]
      exact having_token floats _
  | array input first second rest v values opened element _ one others =>
      intro states dom
      rw [wanting_pass floats _ _ _ _ _ opened,
        pass_array floats _ _ _ (value_opens floats _ _ _ element), one]
      exact others _ _ _ _
  | endArray input rest closed =>
      intro states root outer done
      simp only [having, evaluateState, get_token_scan floats _ _ _ _ _ _ closed, finish]
      rw [skipping_token, List.append_nil]
      rfl
  | element input first second rest v values comma _ _ one others =>
      intro states root outer done
      simp only [having, evaluateState, get_token_scan floats _ _ _ _ _ _ comma, finish]
      rw [wanting_token, one]
      simp only [Dom.handle_value, Container.add]
      rw [others, List.append_assoc]
      rfl
  | emptyObject input first rest opened closed =>
      intro states dom
      rw [wanting_pass floats _ _ _ _ _ opened]
      simp only [JsonParser.pass, Bool.false_eq_true, if_false,
        get_token_scan floats _ _ _ _ _ _ closed]
      exact having_token floats _
  | object input first second third fourth rest key v assignments opened keyed colon _ _ one others =>
      intro states dom
      rw [wanting_pass floats _ _ _ _ _ opened]
      simp only [JsonParser.pass, Bool.false_eq_true, if_false,
        get_token_scan floats _ _ _ _ _ _ keyed,
        get_token_scan floats _ _ _ _ _ _ colon, finish]
      rw [wanting_token, one, Dom.start_object, key_add]
      exact others _ _ _ _ _
  | endObject input rest closed =>
      intro states root outer done held
      simp only [having, evaluateState, get_token_scan floats _ _ _ _ _ _ closed, finish]
      rw [skipping_token]
      rfl
  | member input first second third fourth rest key v assignments comma keyed colon _ _ one others =>
      intro states root outer done held
      simp only [having, evaluateState, get_token_scan floats _ _ _ _ _ _ comma,
        get_token_scan floats _ _ _ _ _ _ keyed,
        get_token_scan floats _ _ _ _ _ _ colon, finish]
      rw [wanting_token, one, key_add]
      exact others _ _ _ _ _

theorem scan_rest (input rest : Bytes) (token : Token F)
    (scanned : scan floats input = (token, rest))
    (proper : token.Proper) :
    rest.length < input.length := by
  have shorter := JsonLexer.scan_shorter floats input
  rw [scanned] at shorter
  exact shorter proper

theorem atom_proper (token : Token F) (v : Value F) (known : atom floats token = some v) :
    token.Proper := by
  cases token with
  | parse_error _ | end_of_input => cases known
  | _ => exact trivial

theorem reads_shorter (phrase : Phrase F) (input rest : Bytes)
    (reads : Reads floats phrase input rest) :
    rest.length < input.length := by
  have shorter (input rest : Bytes) (token : Token F) (scanned : scan floats input = (token, rest))
      (proper : token.Proper) :=
    scan_rest floats input rest token scanned proper
  induction reads with
  | atom input rest token v scanned known =>
      exact shorter _ _ _ scanned (atom_proper floats token v known)
  | emptyArray _ _ _ opened closed | emptyObject _ _ _ opened closed =>
      exact Nat.lt_trans (shorter _ _ _ closed trivial) (shorter _ _ _ opened trivial)
  | array _ _ _ _ _ _ opened _ _ one others | element _ _ _ _ _ _ opened _ _ one others =>
      exact Nat.lt_trans others (Nat.lt_trans one (shorter _ _ _ opened trivial))
  | endArray _ _ closed | endObject _ _ closed => exact shorter _ _ _ closed trivial
  | object _ _ _ _ _ _ _ _ _ opened keyed colon _ _ one others
  | member _ _ _ _ _ _ _ _ _ opened keyed colon _ _ one others =>
      exact Nat.lt_trans others (Nat.lt_trans one (Nat.lt_trans (shorter _ _ _ colon trivial)
        (Nat.lt_trans (shorter _ _ _ keyed trivial) (shorter _ _ _ opened trivial))))

/-- From each point where the loop may stand, a run to the end has read a phrase. -/
structure Sound (input : Bytes) : Prop where
  value : ∀ states dom last, wanting floats input states dom = .ok last →
    ∃ v rest, Reads floats (.value v) input rest ∧
      having floats rest states (dom.handle_value v) = .ok last
  elements : ∀ states root outer done last, having floats input (true :: states)
    ⟨root, .array done :: outer⟩ = .ok last →
    ∃ values rest, Reads floats (.elements values) input rest ∧
      having floats rest states (Dom.handle_value (.array (done ++ values)) ⟨root, outer⟩) =
        .ok last
  members : ∀ states root outer done held last,
    having floats input (false :: states) ⟨root, .object done held :: outer⟩ = .ok last →
    ∃ assignments rest, Reads floats (.members assignments) input rest ∧
      having floats rest states (Dom.handle_value (.object (assignAll assignments done))
        ⟨root, outer⟩) = .ok last

theorem sound_value (input : Bytes)
    (shorter : ∀ rest : Bytes, rest.length < input.length → Sound floats rest)
    (states : List Bool) (dom : Dom F) (last : Bytes × Value F)
    (ran : wanting floats input states dom = .ok last) :
    ∃ v rest, Reads floats (.value v) input rest ∧
      having floats rest states (dom.handle_value v) = .ok last := by
  rcases scanned : scan floats input with ⟨token, first⟩
  rw [wanting_pass floats _ _ _ _ _ scanned] at ran
  -- a scalar is one token; only the brackets ask for another one
  by_cases known : ∃ v, atom floats token = some v
  · obtain ⟨v, known⟩ := known
    rw [pass_atom floats _ _ _ _ _ known] at ran
    exact ⟨v, first, .atom _ _ _ _ scanned known, ran⟩
  · rcases following : scan floats first with ⟨next, second⟩
    cases token with
    | begin_array =>
        have behind := scan_rest floats _ _ _ scanned trivial
        by_cases closed : next = .end_array
        · subst closed
          simp only [JsonParser.pass, Bool.false_eq_true, if_false,
            get_token_scan floats _ _ _ _ _ _ following] at ran
          exact ⟨_, second, .emptyArray _ _ _ scanned following,
            (having_token floats _).symm.trans ran⟩
        · rw [pass_array floats _ _ _ (by rw [following]; exact closed)] at ran
          -- each part is shorter, because the token before it has been taken
          obtain ⟨v, third, one, ran⟩ := (shorter first behind).value _ _ _ ran
          have between := reads_shorter floats _ _ _ one
          obtain ⟨values, rest, others, ran⟩ := (shorter third (by omega)).elements _ _ _ _ _ ran
          exact ⟨_, rest, .array _ _ _ _ _ _ scanned one others, ran⟩
    | begin_object =>
        have behind := scan_rest floats _ _ _ scanned trivial
        simp only [JsonParser.pass, Bool.false_eq_true, if_false,
          get_token_scan floats _ _ _ _ _ _ following] at ran
        split at ran
        · exact ⟨_, second, .emptyObject _ _ _ scanned following,
            (having_token floats _).symm.trans ran⟩
        · rename_i key
          have further := scan_rest floats _ _ _ following trivial
          rcases separated : scan floats second with ⟨colon, third⟩
          simp only [get_token_scan floats _ _ _ _ _ _ separated] at ran
          split at ran
          · have deeper := scan_rest floats _ _ _ separated trivial
            simp only [finish] at ran
            rw [wanting_token] at ran
            obtain ⟨v, fourth, one, ran⟩ := (shorter third (by omega)).value _ _ _ ran
            have between := reads_shorter floats _ _ _ one
            rw [Dom.start_object, key_add] at ran
            obtain ⟨assignments, rest, others, ran⟩ :=
              (shorter fourth (by omega)).members _ _ _ _ _ _ ran
            exact ⟨_, rest, .object _ _ _ _ _ _ _ _ _ scanned following separated one others, ran⟩
          · cases ran
        · cases ran
    | value_float res =>
        simp only [atom] at known
        simp only [JsonParser.pass, Bool.false_eq_true, if_false] at ran
        split at ran
        · rename_i finite
          exact absurd ⟨_, if_pos finite⟩ known
        · cases ran
    | literal_true | literal_false | literal_null | value_string _ | value_unsigned _
    | value_integer _ =>
        exact absurd ⟨_, rfl⟩ known
    | end_array | end_object | name_separator | value_separator | parse_error _ | end_of_input =>
        cases ran

theorem sound_elements (input : Bytes)
    (shorter : ∀ rest : Bytes, rest.length < input.length → Sound floats rest)
    (states : List Bool) (root : Value F) (outer : List (Container F)) (done : List (Value F))
    (last : Bytes × Value F)
    (ran : having floats input (true :: states) ⟨root, .array done :: outer⟩ = .ok last) :
    ∃ values rest, Reads floats (.elements values) input rest ∧
      having floats rest states (Dom.handle_value (.array (done ++ values)) ⟨root, outer⟩) =
        .ok last := by
  rcases scanned : scan floats input with ⟨token, first⟩
  simp only [having, evaluateState, get_token_scan floats _ _ _ _ _ _ scanned] at ran
  split at ran
  · have behind := scan_rest floats _ _ _ scanned trivial
    simp only [finish] at ran
    rw [wanting_token] at ran
    obtain ⟨v, second, one, ran⟩ := (shorter first behind).value _ _ _ ran
    have between := reads_shorter floats _ _ _ one
    obtain ⟨values, rest, others, ran⟩ := (shorter second (by omega)).elements _ _ _ _ _ ran
    rw [List.append_assoc] at ran
    exact ⟨v :: values, rest, .element _ _ _ _ _ _ scanned one others, ran⟩
  · simp only [finish] at ran
    rw [skipping_token] at ran
    exact ⟨[], first, .endArray _ _ scanned, by rw [List.append_nil]; exact ran⟩
  · cases ran

theorem sound_members (input : Bytes)
    (shorter : ∀ rest : Bytes, rest.length < input.length → Sound floats rest)
    (states : List Bool) (root : Value F) (outer : List (Container F))
    (done : List (Bytes × Value F)) (held : Bytes)
    (last : Bytes × Value F) (ran : having floats input (false :: states)
      ⟨root, .object done held :: outer⟩ = .ok last) :
    ∃ assignments rest, Reads floats (.members assignments) input rest ∧
      having floats rest states (Dom.handle_value (.object (assignAll assignments done))
        ⟨root, outer⟩) =
        .ok last := by
  rcases scanned : scan floats input with ⟨token, first⟩
  simp only [having, evaluateState, get_token_scan floats _ _ _ _ _ _ scanned] at ran
  -- a comma, then a key, a colon and a value; or the closing brace; or an error
  split at ran
  · have behind := scan_rest floats _ _ _ scanned trivial
    rcases keyed : scan floats first with ⟨name, second⟩
    simp only [get_token_scan floats _ _ _ _ _ _ keyed] at ran
    split at ran
    · rename_i key
      have further := scan_rest floats _ _ _ keyed trivial
      rcases separated : scan floats second with ⟨colon, third⟩
      simp only [get_token_scan floats _ _ _ _ _ _ separated] at ran
      split at ran
      · have deeper := scan_rest floats _ _ _ separated trivial
        simp only [finish] at ran
        rw [wanting_token] at ran
        obtain ⟨v, fourth, one, ran⟩ := (shorter third (by omega)).value _ _ _ ran
        have between := reads_shorter floats _ _ _ one
        rw [key_add] at ran
        obtain ⟨assignments, rest, others, ran⟩ :=
          (shorter fourth (by omega)).members _ _ _ _ _ _ ran
        exact ⟨(key, v) :: assignments, rest,
          .member _ _ _ _ _ _ _ _ _ scanned keyed separated one others, ran⟩
      · cases ran
    · cases ran
  · simp only [finish] at ran
    rw [skipping_token] at ran
    exact ⟨[], first, .endObject _ _ scanned, ran⟩
  · cases ran

theorem loop_sound (input : Bytes) : Sound floats input := by
  -- on the bytes that are left, because the three runs call each other
  induction size : input.length using Nat.strongRecOn generalizing input with
  | ind n ih =>
    subst size
    have shorter : ∀ rest : Bytes, rest.length < input.length → Sound floats rest :=
      fun rest less =>
      ih _ less rest rfl
    exact ⟨sound_value floats input shorter, sound_elements floats input shorter,
      sound_members floats input shorter⟩

/-- A text that begins behind the byte order mark, if there is one, and that whitespace may
follow. -/
def Accepts (text : Bytes) (v : Value F) : Prop :=
  ∃ input rest, skip_bom text = some input ∧ Reads floats (.value v) input rest ∧
    (scan floats rest).1 = .end_of_input

theorem parse_ok (text : Bytes) (v : Value F) :
    parse floats text = .ok v ↔ ∃ rest, result (sax_parse_internal floats false
      ⟨(scanFirst floats text).2, (scanFirst floats text).1, [], ⟨.null, []⟩⟩) = .ok (rest, v) ∧
      (scan floats rest).1 = .end_of_input := by
  simp only [parse, bind, Except.bind]
  cases sax_parse_internal floats false
    ⟨(scanFirst floats text).2, (scanFirst floats text).1, [], ⟨.null, []⟩⟩ with
  | error error => simp [result]
  | ok parser =>
      simp only [result, Except.ok.injEq, Prod.mk.injEq, get_token]
      constructor
      · intro read
        split at read
        · rename_i ended
          cases read
          exact ⟨_, ⟨rfl, rfl⟩, ended⟩
        · cases read
      · rintro ⟨_, ⟨rfl, rfl⟩, ended⟩
        rw [ended]

/-- The parser accepts what the grammar over the tokens does, with the value of the grammar. -/
theorem parse_accepts (text : Bytes) (v : Value F) :
    parse floats text = .ok v ↔ Accepts floats text v := by
  rw [parse_ok]
  cases begun : skip_bom text with
  | none =>
      have first : scanFirst floats text =
          (.parse_error "invalid BOM; must be 0xEF 0xBB 0xBF if given", []) := by
        simp only [scanFirst, begun]
      simp only [first, result_loop, Accepts, begun]
      simp [JsonParser.pass, finish]
  | some input =>
      have first : scanFirst floats text = scan floats input := by
        simp only [scanFirst, begun]
      have wants : result (sax_parse_internal floats false
          ⟨(scan floats input).2, (scan floats input).1, [], ⟨.null, []⟩⟩) =
          wanting floats input [] ⟨.null, []⟩ := rfl
      rw [first, wants]
      constructor
      · rintro ⟨rest, ran, ended⟩
        obtain ⟨w, behind, reads, last⟩ := (loop_sound floats input).value _ _ _ ran
        cases last
        exact ⟨input, behind, begun, reads, ended⟩
      · rintro ⟨_, rest, same, reads, ended⟩
        obtain rfl : input = _ := Option.some.inj (begun.symm.trans same)
        have ran := reads_runs floats _ _ _ reads [] ⟨.null, []⟩
        exact ⟨rest, ran, ended⟩

end Tokens

section Bytes
variable (floats : Floats F)

/-! The grammar over the bytes. -/

inductive Derives : Phrase F → Bytes → Prop where
  | atom (blank text : Bytes) (token : Token F) (v : Value F) : Blank blank →
      Lexeme floats text token →
      atom floats token = some v → Derives (.value v) (blank ++ text)
  | emptyArray (blank inner : Bytes) : Blank blank → Blank inner →
      Derives (.value (.array [])) (blank ++ 91 :: (inner ++ [93]))
  | array (blank first others : Bytes) (v : Value F) (values : List (Value F)) : Blank blank →
      Derives (.value v) first →
      Derives (.elements values) others → Derives (.value (.array (v :: values)))
        (blank ++ 91 :: (first ++ others))
  | endArray (blank : Bytes) : Blank blank → Derives (.elements []) (blank ++ [93])
  | element (blank first others : Bytes) (v : Value F) (values : List (Value F)) : Blank blank →
      Derives (.value v) first →
      Derives (.elements values) others → Derives (.elements (v :: values))
        (blank ++ 44 :: (first ++ others))
  | emptyObject (blank inner : Bytes) : Blank blank → Blank inner →
      Derives (.value (.object [])) (blank ++ 123 :: (inner ++ [125]))
  | object (blank before raw behind first others key : Bytes) (v : Value F)
      (assignments : List (Bytes × Value F)) :
      Blank blank → Blank before → Body raw key → Blank behind → Derives (.value v) first →
      Derives (.members assignments) others →
        Derives (.value (.object (assignAll ((key, v) :: assignments) [])))
        (blank ++ 123 :: (before ++ 34 :: (raw ++ 34 :: (behind ++ 58 :: (first ++ others)))))
  | endObject (blank : Bytes) : Blank blank → Derives (.members []) (blank ++ [125])
  | member (blank before raw behind first others key : Bytes) (v : Value F)
      (assignments : List (Bytes × Value F)) :
      Blank blank → Blank before → Body raw key → Blank behind → Derives (.value v) first →
      Derives (.members assignments) others → Derives (.members ((key, v) :: assignments))
        (blank ++ 44 :: (before ++ 34 :: (raw ++ 34 :: (behind ++ 58 :: (first ++ others)))))

/-- The tokens of one byte. -/
def punctuation : Token F → Option UInt8
  | .begin_array => some 91
  | .end_array => some 93
  | .begin_object => some 123
  | .end_object => some 125
  | .name_separator => some 58
  | .value_separator => some 44
  | _ => none

theorem convert_number (number_type : JsonLexer.NumberType) (text : Bytes) :
    punctuation (JsonLexer.convert floats number_type text) = none ∧
      ∀ s, JsonLexer.convert floats number_type text ≠ .value_string s := by
  cases number_type <;> simp only [JsonLexer.convert]
  · split <;> simp [punctuation]
  · split <;> simp [punctuation]
  · simp [punctuation]

theorem lexeme_punctuation (text : Bytes) (token : Token F) (byte : UInt8)
    (lexeme : Lexeme floats text token)
    (known : punctuation token = some byte) : text = [byte] := by
  cases lexeme with
  | number _ _ =>
      rw [(convert_number floats _ _).1] at known
      cases known
  | begin_array | end_array | begin_object | end_object | name_separator | value_separator =>
      cases known
      rfl
  | literal_true | literal_false | literal_null | value_string _ _ _ => cases known

theorem lexeme_string (text s : Bytes) (lexeme : Lexeme floats text (.value_string s)) :
    ∃ raw, text = 34 :: raw ++ [34] ∧ Body raw s := by
  generalize whole : Token.value_string s = token at lexeme
  cases lexeme with
  | value_string raw decoded body =>
      cases whole
      exact ⟨raw, rfl, body⟩
  | number _ _ => exact absurd whole.symm ((convert_number floats _ _).2 s)
  | begin_array | end_array | begin_object | end_object | name_separator | value_separator
  | literal_true | literal_false
  | literal_null => cases whole

theorem scan_punctuation (input rest : Bytes) (token : Token F) (byte : UInt8)
    (scanned : scan floats input = (token, rest))
    (known : punctuation token = some byte) :
    ∃ blank, Blank blank ∧ input = blank ++ byte :: rest := by
  have proper : token.Proper := by
    cases token with
    | parse_error _ | end_of_input => cases known
    | _ => exact trivial
  obtain ⟨blank, text, rfl, isBlank, _, lexeme⟩ :=
    JsonLexer.scan_sound floats input rest token scanned proper
  obtain rfl := lexeme_punctuation floats text token byte lexeme known
  exact ⟨blank, isBlank, by simp⟩

theorem scan_key (input rest s : Bytes) (scanned : scan floats input = (.value_string s, rest)) :
    ∃ blank raw, Blank blank ∧ Body raw s ∧ input = blank ++ 34 :: (raw ++ 34 :: rest) := by
  obtain ⟨blank, text, rfl, isBlank, _, lexeme⟩ :=
    JsonLexer.scan_sound floats input rest _ scanned trivial
  obtain ⟨raw, rfl, body⟩ := lexeme_string floats text s lexeme
  exact ⟨blank, raw, isBlank, body, by simp⟩

theorem reads_derives (phrase : Phrase F) (input rest : Bytes)
    (reads : Reads floats phrase input rest) :
    ∃ text, input = text ++ rest ∧ Derives floats phrase text := by
  induction reads with
  | atom input rest token v scanned known =>
      obtain ⟨blank, text, rfl, isBlank, _, lexeme⟩ :=
        JsonLexer.scan_sound floats input rest token scanned
        (atom_proper floats token v known)
      exact ⟨blank ++ text, rfl, .atom blank text token v isBlank lexeme known⟩
  | emptyArray input first rest opened closed =>
      obtain ⟨blank, isBlank, rfl⟩ := scan_punctuation floats _ _ _ _ opened rfl
      obtain ⟨inner, isInner, rfl⟩ := scan_punctuation floats _ _ _ _ closed rfl
      exact ⟨_, by simp, .emptyArray blank inner isBlank isInner⟩
  | array input first second rest v values opened _ _ one others =>
      obtain ⟨blank, isBlank, rfl⟩ := scan_punctuation floats _ _ _ _ opened rfl
      obtain ⟨text, rfl, derived⟩ := one
      obtain ⟨more, rfl, closing⟩ := others
      exact ⟨_, by simp, .array blank text more v values isBlank derived closing⟩
  | endArray input rest closed =>
      obtain ⟨blank, isBlank, rfl⟩ := scan_punctuation floats _ _ _ _ closed rfl
      exact ⟨_, by simp, .endArray blank isBlank⟩
  | element input first second rest v values comma _ _ one others =>
      obtain ⟨blank, isBlank, rfl⟩ := scan_punctuation floats _ _ _ _ comma rfl
      obtain ⟨text, rfl, derived⟩ := one
      obtain ⟨more, rfl, closing⟩ := others
      exact ⟨_, by simp, .element blank text more v values isBlank derived closing⟩
  | emptyObject input first rest opened closed =>
      obtain ⟨blank, isBlank, rfl⟩ := scan_punctuation floats _ _ _ _ opened rfl
      obtain ⟨inner, isInner, rfl⟩ := scan_punctuation floats _ _ _ _ closed rfl
      exact ⟨_, by simp, .emptyObject blank inner isBlank isInner⟩
  | object input first second third fourth rest key v assignments opened keyed colon _ _ one others =>
      obtain ⟨blank, isBlank, rfl⟩ := scan_punctuation floats _ _ _ _ opened rfl
      obtain ⟨before, raw, isBefore, body, rfl⟩ := scan_key floats _ _ _ keyed
      obtain ⟨behind, isBehind, rfl⟩ := scan_punctuation floats _ _ _ _ colon rfl
      obtain ⟨text, rfl, derived⟩ := one
      obtain ⟨more, rfl, closing⟩ := others
      exact ⟨_, by simp,
        .object blank before raw behind text more key v assignments isBlank isBefore body isBehind derived closing⟩
  | endObject input rest closed =>
      obtain ⟨blank, isBlank, rfl⟩ := scan_punctuation floats _ _ _ _ closed rfl
      exact ⟨_, by simp, .endObject blank isBlank⟩
  | member input first second third fourth rest key v assignments comma keyed colon _ _ one others =>
      obtain ⟨blank, isBlank, rfl⟩ := scan_punctuation floats _ _ _ _ comma rfl
      obtain ⟨before, raw, isBefore, body, rfl⟩ := scan_key floats _ _ _ keyed
      obtain ⟨behind, isBehind, rfl⟩ := scan_punctuation floats _ _ _ _ colon rfl
      obtain ⟨text, rfl, derived⟩ := one
      obtain ⟨more, rfl, closing⟩ := others
      exact ⟨_, by simp,
        .member blank before raw behind text more key v assignments isBlank isBefore body isBehind derived closing⟩

/-! The other direction: the lexer finds the tokens that the grammar has put there. -/

theorem number_begins (first : UInt8) (text : Bytes) (number : Number (first :: text)) :
    first = 45 ∨ CNumbers.digit first = true := by
  rcases number with (⟨_, same, _⟩ | ⟨_, _, same, digit, _⟩) | ⟨_, same, _⟩
  · cases same
    exact .inr rfl
  · cases same
    exact .inr digit
  · cases same
    exact .inl rfl

theorem scan_byte (blank rest : Bytes) (token : Token F) (byte : UInt8) (isBlank : Blank blank)
    (known : punctuation token = some byte) :
    scan floats (blank ++ byte :: rest) = (token, rest) := by
  obtain ⟨lexeme, other⟩ : Lexeme floats [byte] token ∧
      ¬ (byte = 45 ∨ CNumbers.digit byte = true) := by
    cases token with
    | begin_array | end_array | begin_object | end_object | name_separator | value_separator =>
        cases known
        exact ⟨by constructor, by decide⟩
    | _ => cases known
  have scanned := JsonLexer.scan_complete floats blank [byte] rest token isBlank lexeme
    fun number => absurd (number_begins byte [] number) other
  rwa [List.append_assoc] at scanned

theorem scan_quoted (blank raw rest s : Bytes) (isBlank : Blank blank) (body : Body raw s) :
    scan floats (blank ++ 34 :: (raw ++ 34 :: rest)) = (.value_string s, rest) := by
  have scanned := JsonLexer.scan_complete floats blank (34 :: raw ++ [34]) rest _ isBlank
    (.value_string raw s body)
    fun number => absurd (number_begins 34 _ number) (by decide)
  simpa using scanned

theorem stops_byte (byte : UInt8) (rest : Bytes)
    (stop : byte ∈ ([32, 9, 10, 13, 44, 93, 125, 0] : Bytes)) :
    Stops (byte :: rest) := by
  have all : ∀ byte ∈ ([32, 9, 10, 13, 44, 93, 125, 0] : Bytes),
      CNumbers.digit byte = false ∧ byte ≠ 46 ∧ byte ≠ 101 ∧ byte ≠ 69 := by decide +kernel
  intro other same
  cases same
  exact all byte stop

theorem blank_stops (blank rest : Bytes) (isBlank : Blank blank) (stops : Stops rest) :
    Stops (blank ++ rest) := by
  cases blank with
  | nil => exact stops
  | cons first blank =>
      have white := isBlank first List.mem_cons_self
      simp only [JsonLexer.whitespace, Bool.or_eq_true, beq_iff_eq] at white
      exact stops_byte first _ (by simp only [List.mem_cons]; tauto)

/-- What follows a value in an array or an object. -/
theorem closing_stops (phrase : Phrase F) (text rest : Bytes) (derived : Derives floats phrase text)
    (behind : ∀ v, phrase ≠ .value v) : Stops (text ++ rest) := by
  cases derived with
  | atom _ _ _ v | emptyArray _ _ | array _ _ _ v values | emptyObject _ _
  | object _ _ _ _ _ _ _ v assignments =>
      exact absurd rfl (behind _)
  | endArray blank isBlank | element blank _ _ _ _ isBlank | endObject blank isBlank
  | member blank _ _ _ _ _ _ _ _ isBlank =>
      rw [List.append_assoc]
      exact blank_stops blank _ isBlank (stops_byte _ _ (by simp))

theorem derives_reads (phrase : Phrase F) (text rest : Bytes) (derived : Derives floats phrase text)
    (stops : ∀ v, phrase = .value v → Stops rest) : Reads floats phrase (text ++ rest) rest := by
  -- a number ends where a byte follows that cannot be part of one: hence `stops` for a value
  induction derived generalizing rest with
  | atom blank text token v isBlank lexeme known =>
      exact .atom _ _ token v (JsonLexer.scan_complete floats blank text rest token isBlank lexeme
        fun _ => stops v rfl) known
  | emptyArray blank inner isBlank isInner =>
      rw [List.append_assoc, List.cons_append, List.append_assoc]
      exact .emptyArray _ _ _ (scan_byte floats _ _ _ _ isBlank rfl)
        (scan_byte floats _ _ _ _ isInner rfl)
  | array blank first others v values isBlank _ closing one more =>
      rw [List.append_assoc, List.cons_append, List.append_assoc]
      exact .array _ _ _ _ _ _ (scan_byte floats _ _ _ _ isBlank rfl)
        (one _ fun _ _ => closing_stops floats _ _ rest closing (by simp)) (more rest (by simp))
  | endArray blank isBlank =>
      rw [List.append_assoc]
      exact .endArray _ _ (scan_byte floats _ _ _ _ isBlank rfl)
  | element blank first others v values isBlank _ closing one more =>
      rw [List.append_assoc, List.cons_append, List.append_assoc]
      exact .element _ _ _ _ _ _ (scan_byte floats _ _ _ _ isBlank rfl)
        (one _ fun _ _ => closing_stops floats _ _ rest closing (by simp)) (more rest (by simp))
  | emptyObject blank inner isBlank isInner =>
      rw [List.append_assoc, List.cons_append, List.append_assoc]
      exact .emptyObject _ _ _ (scan_byte floats _ _ _ _ isBlank rfl)
        (scan_byte floats _ _ _ _ isInner rfl)
  | object blank before raw behind first others key v assignments isBlank isBefore body isBehind _ closing one more =>
      simp only [List.append_assoc, List.cons_append]
      exact .object _ _ _ _ _ _ _ _ _ (scan_byte floats _ _ _ _ isBlank rfl)
        (scan_quoted floats _ _ _ _ isBefore body)
        (scan_byte floats _ _ _ _ isBehind rfl)
        (one _ fun _ _ => closing_stops floats _ _ rest closing (by simp)) (more rest (by simp))
  | endObject blank isBlank =>
      rw [List.append_assoc]
      exact .endObject _ _ (scan_byte floats _ _ _ _ isBlank rfl)
  | member blank before raw behind first others key v assignments isBlank isBefore body isBehind _ closing one more =>
      simp only [List.append_assoc, List.cons_append]
      exact .member _ _ _ _ _ _ _ _ _ (scan_byte floats _ _ _ _ isBlank rfl)
        (scan_quoted floats _ _ _ _ isBefore body)
        (scan_byte floats _ _ _ _ isBehind rfl)
        (one _ fun _ _ => closing_stops floats _ _ rest closing (by simp)) (more rest (by simp))

theorem lexeme_ascii (text : Bytes) (token : Token F) (lexeme : Lexeme floats text token) :
    ∃ first rest, text = first :: rest ∧ first ≠ 0 ∧ first ≠ 0xEF := by
  cases lexeme with
  | number text number =>
      obtain ⟨first, rest, rfl⟩ : ∃ first rest, text = first :: rest := by
        rcases number with (⟨_, rfl, _⟩ | ⟨_, _, rfl, _⟩) | ⟨_, rfl, _⟩ <;> exact ⟨_, _, rfl⟩
      have began := number_begins first rest number
      refine ⟨first, rest, rfl, ?_, ?_⟩ <;>
      · rintro rfl
        revert began
        decide
  | value_string raw _ _ => exact ⟨34, raw ++ [34], rfl, by decide, by decide⟩
  | begin_array | end_array | begin_object | end_object | name_separator | value_separator
  | literal_true | literal_false
  | literal_null => exact ⟨_, _, rfl, by decide, by decide⟩

/-- A byte order mark or nothing. -/
def Mark (mark : Bytes) : Prop := mark = [] ∨ mark = [0xEF, 0xBB, 0xBF]

/-- A JSON text with whitespace around it, up to the end or a NUL. -/
def Text (text : Bytes) (v : Value F) : Prop :=
  ∃ mark core blank tail, text = mark ++ (core ++ (blank ++ tail)) ∧ Mark mark ∧
    Derives floats (.value v) core ∧ Blank blank ∧
    (tail = [] ∨ tail.head? = some 0)

theorem skip_bom_mark (text input : Bytes) (begun : skip_bom text = some input) :
    ∃ mark, text = mark ++ input ∧ Mark mark := by
  unfold skip_bom at begun
  split at begun
  · cases begun
    exact ⟨[0xEF, 0xBB, 0xBF], rfl, .inr rfl⟩
  · cases begun
  · cases begun
    exact ⟨[], rfl, .inl rfl⟩

theorem mark_skip_bom (mark input : Bytes) (isMark : Mark mark) (other : input.head? ≠ some 0xEF) :
    skip_bom (mark ++ input) = some input := by
  rcases isMark with rfl | rfl
  · rw [List.nil_append]
    unfold skip_bom
    split
    · exact absurd rfl other
    · exact absurd rfl other
    · rfl
  · rfl

theorem derives_first (v : Value F) (text : Bytes) (derived : Derives floats (.value v) text)
    (rest : Bytes) :
    (text ++ rest).head? ≠ some 0xEF := by
  have front (blank text : Bytes) (isBlank : Blank blank) (other : text.head? ≠ some 0xEF) :
      (blank ++ text).head? ≠ some 0xEF := by
    cases blank with
    | nil => exact other
    | cons first blank =>
        intro same
        obtain rfl : first = 0xEF := Option.some.inj same
        exact absurd (isBlank _ List.mem_cons_self) (by decide)
  cases derived with
  | atom blank text token _ isBlank lexeme _ =>
      obtain ⟨first, more, rfl, _, other⟩ := lexeme_ascii floats text token lexeme
      rw [List.append_assoc]
      exact front _ _ isBlank (by simpa using other)
  | emptyArray blank _ isBlank | array blank _ _ _ _ isBlank | emptyObject blank _ isBlank
  | object blank _ _ _ _ _ _ _ _ isBlank =>
      rw [List.append_assoc]
      exact front _ _ isBlank (by simp)

theorem accepts_text (text : Bytes) (v : Value F) : Accepts floats text v ↔ Text floats text v := by
  constructor
  · rintro ⟨input, rest, begun, reads, ended⟩
    obtain ⟨mark, rfl, isMark⟩ := skip_bom_mark text input begun
    obtain ⟨core, rfl, derived⟩ := reads_derives floats _ _ _ reads
    obtain ⟨blank, tail, rfl, isBlank, closed⟩ := (JsonLexer.scan_end_iff floats rest).mp ended
    exact ⟨mark, core, blank, tail, rfl, isMark, derived, isBlank, closed⟩
  · rintro ⟨mark, core, blank, tail, rfl, isMark, derived, isBlank, closed⟩
    have stops : Stops (blank ++ tail) := by
      refine blank_stops blank tail isBlank ?_
      rcases closed with rfl | zero
      · exact fun _ member => by cases member
      · cases tail with
        | nil => cases zero
        | cons first tail =>
            obtain rfl : first = 0 := Option.some.inj zero
            exact stops_byte 0 tail (by decide)
    exact ⟨core ++ (blank ++ tail), blank ++ tail, mark_skip_bom mark _ isMark
      (derives_first floats v core derived _),
      derives_reads floats _ core _ derived fun _ _ => stops,
      (JsonLexer.scan_end_iff floats _).mpr ⟨blank, tail, rfl, isBlank, closed⟩⟩

/-- The explicit stack accepts exactly the JSON texts, and gives each the value it has. -/
theorem parse_text (text : Bytes) (v : Value F) : parse floats text = .ok v ↔ Text floats text v :=
  (parse_accepts floats text v).trans (accepts_text floats text v)

/-- json::parse has one value for a JSON text, and throws for everything else. -/
theorem parse_decides (text : Bytes) :
    (∀ v, parse floats text = .ok v ↔ Text floats text v) ∧
      ((∃ failure, parse floats text = .error failure) ↔ ∀ v, ¬ Text floats text v) := by
  refine ⟨parse_text floats text, ?_⟩
  cases parsed : parse floats text with
  | error failure =>
      exact iff_of_true ⟨failure, rfl⟩ fun v accepted =>
        by cases parsed.symm.trans ((parse_text floats text v).mpr accepted)
  | ok v => exact iff_of_false (by simp) fun never => never v ((parse_text floats text v).mp parsed)

end Bytes

end MuduoChat.JsonGrammar
