import MuduoChat.JsonLexemes

/-!
detail::parser of CHAT/thirdparty/json.hpp with json_sax_dom_parser, as json::parse uses them: the
loop of sax_parse_internal with its stack of states, and the value that grows along ref_stack. A
parse error is an exception here. Its text is kept up to the last token that was read and without
the position.
-/

namespace MuduoChat.JsonParser
open JsonValue
open JsonLexer (Token scan scanFirst skip_bom)
open SortedMap (assign assignAll)

structure ParseError where
  id : Nat
  what : String
  deriving DecidableEq

/-! json_sax_dom_parser. -/

/-- A container of ref_stack, and for an object the key that object_element belongs to. It comes
into the one around it when it is closed; until then nothing else happens to that one. -/
inductive Container (F : Type) where
  | array (values : List (Value F))
  | object (members : List (Bytes × Value F)) (object_element : Bytes)

/-- The innermost container comes first. -/
structure Dom (F : Type) where
  root : Value F
  ref_stack : List (Container F)

variable {F : Type}

def Container.value : Container F → Value F
  | .array values => .array values
  | .object members _ => .object members

/-- `emplace_back(v)` or `*object_element = v` -/
def Container.add (v : Value F) : Container F → Container F
  | .array values => .array (values ++ [v])
  | .object members object_element => .object (assign object_element v members) object_element

namespace Dom

def handle_value (v : Value F) (dom : Dom F) : Dom F :=
  match dom.ref_stack with
  | [] => { dom with root := v }
  | top :: outer => { dom with ref_stack := top.add v :: outer }

def start_object (dom : Dom F) : Dom F := { dom with ref_stack := .object [] [] :: dom.ref_stack }

def start_array (dom : Dom F) : Dom F := { dom with ref_stack := .array [] :: dom.ref_stack }

/-- operator[] puts a null at a key that is new. -/
def key (val : Bytes) (dom : Dom F) : Dom F :=
  match dom.ref_stack with
  | .object members _ :: outer =>
      let members := if (members.lookup val).isSome then members else assign val .null members
      { dom with ref_stack := .object members val :: outer }
  | _ => dom

/-- end_object and end_array -/
def close (dom : Dom F) : Dom F :=
  match dom.ref_stack with
  | top :: outer => handle_value top.value { dom with ref_stack := outer }
  | [] => dom

end Dom

/-! parser. -/

structure Parser (F : Type) where
  input : Bytes
  last_token : Token F
  /-- true for an array, false for an object; the innermost comes first -/
  states : List Bool
  dom : Dom F

def token_type_name : Token F → String
  | .literal_true => "true literal"
  | .literal_false => "false literal"
  | .literal_null => "null literal"
  | .value_string _ => "string literal"
  | .value_unsigned _ | .value_integer _ | .value_float _ => "number literal"
  | .begin_array => "'['"
  | .begin_object => "'\x7b'"
  | .end_array => "']'"
  | .end_object => "'\x7d'"
  | .name_separator => "':'"
  | .value_separator => "','"
  | .parse_error _ => "<parse error>"
  | .end_of_input => "end of input"

/-- `expected` is the name of the token, or empty for token_type::uninitialized. -/
def exception_message (last_token : Token F) (expected context : String) : String :=
  "syntax error while parsing " ++ context ++ " - " ++
    (match last_token with
    | .parse_error error_message => error_message
    | _ => "unexpected " ++ token_type_name last_token) ++
    (if expected = "" then "" else "; expected " ++ expected)

def syntaxError (parser : Parser F) (expected context : String) : ParseError :=
  ⟨101, exception_message parser.last_token expected context⟩

section Parse
variable (floats : Floats F)

def get_token (parser : Parser F) : Parser F :=
  let next := scan floats parser.input
  { parser with input := next.2, last_token := next.1 }

/-- How one pass of the loop ends. -/
inductive Pass (F : Type) where
  | throws (error : ParseError)
  | finished (parser : Parser F)
  | continues (skip_to_state_evaluation : Bool) (parser : Parser F)

/-- "we reached this line after we successfully parsed a value" -/
def evaluateState (parser : Parser F) : Pass F :=
  match parser.states with
  | [] => .finished parser
  | true :: outer =>
      let parser := get_token floats parser
      match parser.last_token with
      | .value_separator => .continues false (get_token floats parser)
      | .end_array => .continues true { parser with states := outer, dom := parser.dom.close }
      | _ => .throws (syntaxError parser "']'" "array")
  | false :: outer =>
      let parser := get_token floats parser
      match parser.last_token with
      | .value_separator =>
          let parser := get_token floats parser
          match parser.last_token with
          | .value_string val =>
              let parser := get_token floats { parser with dom := parser.dom.key val }
              match parser.last_token with
              | .name_separator => .continues false (get_token floats parser)
              | _ => .throws (syntaxError parser "':'" "object separator")
          | _ => .throws (syntaxError parser "string literal" "object key")
      | .end_object => .continues true { parser with states := outer, dom := parser.dom.close }
      | _ => .throws (syntaxError parser "'\x7d'" "object")

def value (v : Value F) (parser : Parser F) : Pass F :=
  evaluateState floats { parser with dom := parser.dom.handle_value v }

/-- One pass of the loop of sax_parse_internal. -/
def pass (skip_to_state_evaluation : Bool) (parser : Parser F) : Pass F :=
  if skip_to_state_evaluation then evaluateState floats parser
  else
    match parser.last_token with
    | .begin_object =>
        let parser := get_token floats { parser with dom := parser.dom.start_object }
        match parser.last_token with
        | .end_object => evaluateState floats { parser with dom := parser.dom.close }
        | .value_string val =>
            let parser := get_token floats { parser with dom := parser.dom.key val }
            match parser.last_token with
            | .name_separator => .continues false
                (get_token floats { parser with states := false :: parser.states })
            | _ => .throws (syntaxError parser "':'" "object separator")
        | _ => .throws (syntaxError parser "string literal" "object key")
    | .begin_array =>
        let parser := get_token floats { parser with dom := parser.dom.start_array }
        match parser.last_token with
        | .end_array => evaluateState floats { parser with dom := parser.dom.close }
        | _ => .continues false { parser with states := true :: parser.states }
    | .value_float res =>
        if floats.isfinite res then value floats (.number_float res) parser
        else .throws ⟨406, "number overflow parsing"⟩
    | .literal_false => value floats (.boolean false) parser
    | .literal_null => value floats .null parser
    | .literal_true => value floats (.boolean true) parser
    | .value_integer val => value floats (.number_integer val) parser
    | .value_string val => value floats (.string val) parser
    | .value_unsigned val => value floats (.number_unsigned val) parser
    | .parse_error _ => .throws (syntaxError parser "" "value")
    | _ => .throws (syntaxError parser "'[', '\x7b', or a literal" "value")

end Parse

section Loop
variable {F : Type} (floats : Floats F)

/-- It goes down with each pass: at least one more token has been read, or the next pass throws. -/
def passesLeft (skip_to_state_evaluation : Bool) (parser : Parser F) : Nat :=
  if skip_to_state_evaluation ∨ parser.last_token.Proper then parser.input.length + 1 else 0

theorem get_token_shorter (parser : Parser F)
    (proper : (get_token floats parser).last_token.Proper) :
    (get_token floats parser).input.length < parser.input.length :=
  JsonLexer.scan_shorter floats parser.input proper

theorem get_token_left (parser : Parser F) :
    passesLeft false (get_token floats parser) ≤ parser.input.length := by
  unfold passesLeft
  split
  · rename_i proper
    exact get_token_shorter floats parser (proper.resolve_left (by decide))
  · exact Nat.zero_le _

theorem evaluateState_left (parser next : Parser F) (skip : Bool)
    (continued : evaluateState floats parser = .continues skip next) :
    passesLeft skip next ≤ parser.input.length := by
  have shorter (parser : Parser F) (token : Token F)
      (read : (get_token floats parser).last_token = token)
      (proper : token.Proper) : (get_token floats parser).input.length < parser.input.length :=
    get_token_shorter floats parser (read ▸ proper)
  unfold evaluateState at continued
  split at continued
  · cases continued
  · simp only at continued
    split at continued
    · rename_i read
      cases continued
      have first := shorter parser _ read trivial
      have second := get_token_left floats (get_token floats parser)
      omega
    · rename_i read
      cases continued
      exact shorter parser _ read trivial
    · cases continued
  · simp only at continued
    split at continued
    · rename_i read
      have first := shorter parser _ read trivial
      split at continued
      · rename_i val readKey
        have second := shorter _ _ readKey trivial
        split at continued
        · rename_i readColon
          cases continued
          have third := shorter _ _ readColon trivial
          have fourth := get_token_left floats
            (get_token floats { get_token floats (get_token floats parser) with
              dom := (get_token floats (get_token floats parser)).dom.key val })
          simp only at third fourth
          omega
        · cases continued
      · cases continued
    · rename_i read
      cases continued
      exact shorter parser _ read trivial
    · cases continued

theorem pass_left (skip next_skip : Bool) (parser next : Parser F)
    (continued : pass floats skip parser = .continues next_skip next) :
    passesLeft next_skip next < passesLeft skip parser := by
  have whole (token : Token F) (read : parser.last_token = token) (proper : token.Proper) :
      passesLeft skip parser = parser.input.length + 1 := if_pos (.inr (read ▸ proper))
  have stored (v : Value F) (token : Token F) (read : parser.last_token = token)
      (proper : token.Proper)
      (continued : value floats v parser = .continues next_skip next) :
        passesLeft next_skip next < passesLeft skip parser := by
    have left := evaluateState_left floats _ next next_skip continued
    rw [whole token read proper]
    exact Nat.lt_succ_of_le left
  have shorter (parser : Parser F) (token : Token F)
      (read : (get_token floats parser).last_token = token)
      (proper : token.Proper) : (get_token floats parser).input.length < parser.input.length :=
    get_token_shorter floats parser (read ▸ proper)
  unfold pass at continued
  split at continued
  · rename_i skipped
    have left := evaluateState_left floats parser next next_skip continued
    rw [passesLeft.eq_1 skip, if_pos (.inl skipped)]
    exact Nat.lt_succ_of_le left
  · split at continued
    · rename_i read
      rw [whole _ read trivial]
      simp only at continued
      split at continued
      · rename_i closing
        have first := shorter _ _ closing trivial
        have left := evaluateState_left floats _ next next_skip continued
        simp only at first left
        omega
      · rename_i val readKey
        have first := shorter _ _ readKey trivial
        split at continued
        · rename_i readColon
          cases continued
          have second := shorter _ _ readColon trivial
          refine Nat.lt_of_le_of_lt (get_token_left floats _) ?_
          simp only at first second ⊢
          omega
        · cases continued
      · cases continued
    · rename_i read
      rw [whole _ read trivial]
      simp only at continued
      split at continued
      · rename_i closing
        have first := shorter _ _ closing trivial
        have left := evaluateState_left floats _ next next_skip continued
        simp only at first left
        omega
      · cases continued
        exact Nat.lt_succ_of_le
          (get_token_left floats { parser with dom := parser.dom.start_array })
    · rename_i res read
      split at continued
      · exact stored _ _ read trivial continued
      · cases continued
    · rename_i read
      exact stored _ _ read trivial continued
    · rename_i read
      exact stored _ _ read trivial continued
    · rename_i read
      exact stored _ _ read trivial continued
    · rename_i read
      exact stored _ _ read trivial continued
    · rename_i read
      exact stored _ _ read trivial continued
    · rename_i read
      exact stored _ _ read trivial continued
    · cases continued
    · cases continued

def sax_parse_internal (skip_to_state_evaluation : Bool) (parser : Parser F) : Except ParseError
    (Parser F) :=
  match continued : pass floats skip_to_state_evaluation parser with
  | .throws error => .error error
  | .finished parser => .ok parser
  | .continues skip next =>
      have := pass_left floats skip_to_state_evaluation skip parser next continued
      sax_parse_internal skip next
termination_by passesLeft skip_to_state_evaluation parser

/-- `json::parse(text)`: the constructor of parser reads the first token, and parse wants the last
one to be the end of the input. -/
def parse (text : Bytes) : Except ParseError (Value F) := do
  let first := scanFirst floats text
  let parser ← sax_parse_internal floats false ⟨first.2, first.1, [], ⟨.null, []⟩⟩
  let parser := get_token floats parser
  match parser.last_token with
  | .end_of_input => .ok parser.dom.root
  | _ => .error (syntaxError parser "end of input" "value")

end Loop

end MuduoChat.JsonParser
