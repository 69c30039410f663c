import Mathlib.Data.List.Basic
import Mathlib.Data.List.Forall2
import Mathlib.Algebra.Order.Group.Nat

/-!
How MySQL reads the text of an INSERT statement with literal values: the bytes as
tokens (a string literal is in single quotes, with backslash escapes and doubled
quotes; `#`, `-- ` and `/*` begin comments), the tokens as a statement. Reading never
gives more than was written: each token and each value costs at least its own length,
so a text with nothing to spare has no escapes in it. Nothing here names a table.
-/

namespace MuduoChat.SqlText

abbrev Bytes := List UInt8

def ascii (text : String) : Bytes := text.toList.map fun letter => UInt8.ofNat letter.toNat

/-! Tokens. -/

inductive Token where
  | word (letters : Bytes)
  | string (value : Bytes)
  | symbol (byte : UInt8)
  deriving DecidableEq

/-- Where the lexer stands; `quote` has seen a quote that may be the first of two. -/
inductive Lexer where
  | between
  | word (letters : Bytes)
  | string (value : Bytes)
  | escape (value : Bytes)
  | quote (value : Bytes)
  | dash
  | dashes
  | slash
  | line
  | block
  | star

def blank (byte : UInt8) : Bool := byte = 32 ∨ 9 ≤ byte ∧ byte ≤ 13

def letter (byte : UInt8) : Bool :=
  48 ≤ byte ∧ byte ≤ 57 ∨ 65 ≤ byte ∧ byte ≤ 90 ∨ 97 ≤ byte ∧ byte ≤ 122 ∨ byte = 95 ∨ byte = 36 ∨
    128 ≤ byte

/-- What a backslash makes of the next byte. `\\%` and `\\_` keep the backslash. -/
def unescape (byte : UInt8) : Bytes :=
  if byte = 48 then [0]
  else if byte = 98 then [8]
  else if byte = 110 then [10]
  else if byte = 114 then [13]
  else if byte = 116 then [9]
  else if byte = 90 then [26]
  else if byte = 37 ∨ byte = 95 then [92, byte]
  else [byte]

/-- A byte where a token may begin. -/
def start (byte : UInt8) (done : List Token) : Lexer × List Token :=
  if blank byte then (.between, done)
  else if letter byte then (.word [byte], done)
  else if byte = 39 then (.string [], done)
  else if byte = 45 then (.dash, done)
  else if byte = 47 then (.slash, done)
  else if byte = 35 then (.line, done)
  else (.between, done ++ [.symbol byte])

def advance (byte : UInt8) : Lexer → List Token → Lexer × List Token
  | .between, done => start byte done
  | .word letters, done =>
      if letter byte then (.word (letters ++ [byte]), done)
      else start byte (done ++ [.word letters])
  | .string value, done =>
      if byte = 92 then (.escape value, done)
      else if byte = 39 then (.quote value, done)
      else (.string (value ++ [byte]), done)
  | .escape value, done => (.string (value ++ unescape byte), done)
  | .quote value, done =>
      if byte = 39 then (.string (value ++ [39]), done) else start byte (done ++ [.string value])
  | .dash, done => if byte = 45 then (.dashes, done) else start byte (done ++ [.symbol 45])
  | .dashes, done =>
      if blank byte then (.line, done) else start byte (done ++ [.symbol 45, .symbol 45])
  | .slash, done => if byte = 42 then (.block, done) else start byte (done ++ [.symbol 47])
  | .line, done => if byte = 10 then (.between, done) else (.line, done)
  | .block, done => if byte = 42 then (.star, done) else (.block, done)
  | .star, done =>
      if byte = 47 then (.between, done) else if byte = 42 then (.star, done) else (.block, done)

/-- An open string or block comment at the end of the text is an error. -/
def finish : Lexer → List Token → Option (List Token)
  | .between, done => some done
  | .word letters, done => some (done ++ [.word letters])
  | .string _, _ => none
  | .escape _, _ => none
  | .quote value, done => some (done ++ [.string value])
  | .dash, done => some (done ++ [.symbol 45])
  | .dashes, done => some (done ++ [.symbol 45, .symbol 45])
  | .slash, done => some (done ++ [.symbol 47])
  | .line, done => some done
  | .block, _ => none
  | .star, _ => none

def scan : Bytes → Lexer → List Token → Option (List Token)
  | [], lexer, done => finish lexer done
  | byte :: rest, lexer, done =>
      let next := advance byte lexer done
      scan rest next.1 next.2

/-! Statements. A value is a literal. -/

inductive Value where
  | string (value : Bytes)
  | number (negative : Bool) (digits : Bytes)
  deriving DecidableEq

structure Insert where
  table : Bytes
  columns : List Bytes
  rows : List (List Value)
  deriving DecidableEq

/-- Where the parser stands in the VALUES clause; string literals that follow each
other are one value. -/
inductive Clause where
  | row
  | value
  | minus
  | pending (value : Value)
  | ended
  | closed

def number (letters : Bytes) : Bool := !letters.isEmpty && letters.all fun byte =>
    48 ≤ byte && byte ≤ 57

theorem number_digits {letters : Bytes} :
    number letters = true ↔ letters ≠ [] ∧ ∀ byte ∈ letters, 48 ≤ byte ∧ byte ≤ 57 := by
  simp [number]

def take : Token → Clause → List (List Value) → List Value →
    Option (Clause × List (List Value) × List Value)
  | .symbol byte, .row, rows, _ => if byte = 40 then some (.value, rows, []) else none
  | .string value, .value, rows, current => some (.pending (.string value), rows, current)
  | .word letters, .value, rows, current =>
      if number letters then some (.pending (.number false letters), rows, current) else none
  | .symbol byte, .value, rows, current => if byte = 45 then some (.minus, rows, current) else none
  | .word letters, .minus, rows, current =>
      if number letters then some (.pending (.number true letters), rows, current) else none
  | .string more, .pending (.string value), rows, current =>
      some (.pending (.string (value ++ more)), rows, current)
  | .symbol byte, .pending value, rows, current =>
      if byte = 44 then some (.value, rows, current ++ [value])
      else if byte = 41 then some (.ended, rows ++ [current ++ [value]], [])
      else none
  | .symbol byte, .ended, rows, current =>
      if byte = 44 then some (.row, rows, current)
      else if byte = 59 then some (.closed, rows, current) else none
  | _, _, _, _ => none

def clauses : List Token → Clause → List (List Value) → List Value → Option (List (List Value))
  | [], .ended, rows, _ => some rows
  | [], .closed, rows, _ => some rows
  | [], _, _, _ => none
  | token :: rest, clause, rows, current =>
      (take token clause rows current).bind fun next => clauses rest next.1 next.2.1 next.2.2

def names : List Token → Option (List Bytes × List Token)
  | .word name :: .symbol 44 :: rest => (names rest).map fun found => (name :: found.1, found.2)
  | .word name :: .symbol 41 :: rest => some ([name], rest)
  | _ => none

def columns : List Token → Option (List Bytes × List Token)
  | .symbol 40 :: rest => names rest
  | rest => some ([], rest)

def statement : List Token → Option Insert
  | .word insert :: .word into :: .word table :: rest =>
      if insert = ascii "insert" ∧ into = ascii "into" then
        (columns rest).bind fun found =>
          match found.2 with
          | .word values :: clause =>
              if values = ascii "values" then
                (clauses clause .row [] []).map fun rows =>
                  { table := table, columns := found.1, rows := rows }
              else none
          | _ => none
      else none
  | _ => none

/-- The one INSERT statement a text is, where it is one. -/
def read (text : Bytes) : Option Insert := (scan text .between []).bind statement

/-! Costs. -/

def Token.cost : Token → Nat
  | .word letters => letters.length
  | .string value => value.length + 2
  | .symbol _ => 1

def Value.cost : Value → Nat
  | .string value => value.length + 2
  | .number negative digits => negative.toNat + digits.length

def total : List Token → Nat
  | [] => 0
  | token :: rest => token.cost + total rest

/-- What a row needs: each value with the comma or bracket after it, and one bracket. -/
def rowCost : List Value → Nat
  | [] => 1
  | value :: rest => value.cost + 1 + rowCost rest

def rowsCost : List (List Value) → Nat
  | [] => 0
  | row :: rest => rowCost row + rowsCost rest

@[simp] theorem total_nil : total [] = 0 := rfl

@[simp] theorem total_cons (token : Token) (rest : List Token) :
  total (token :: rest) = token.cost + total rest := rfl

@[simp] theorem total_append (left right : List Token) :
  total (left ++ right) = total left + total right := by
  induction left with
  | nil => simp
  | cons token rest ih => simp only [List.cons_append, total_cons, ih, Nat.add_assoc]

/-- No quote, and a backslash only before `%` or `_`. -/
def plain : Bytes → Bool
  | [] => true
  | 92 :: byte :: rest => (byte = 37 ∨ byte = 95) && plain rest
  | byte :: rest => byte ≠ 92 && byte ≠ 39 && plain rest

theorem plain_append (left right : Bytes) (first : plain left = true)
    (second : plain right = true) :
    plain (left ++ right) = true := by
  fun_induction plain left with
  | case1 => exact second
  | case2 byte rest ih =>
      simp only [Bool.and_eq_true] at first
      simp only [List.cons_append, plain, Bool.and_eq_true]
      exact ⟨first.1, ih first.2⟩
  | case3 byte rest lone ih =>
      simp only [Bool.and_eq_true, decide_eq_true_eq, ne_eq] at first
      simp only [List.cons_append]
      rw [plain.eq_3 _ _ (by rintro _ _ rfl; exact absurd rfl first.1.1)]
      simp [first.1.1, first.1.2, ih first.2]

/-! The lexer gives no more than it has read. -/

def Lexer.cost : Lexer → Nat
  | .between => 0
  | .word letters => letters.length
  | .string value => value.length + 1
  | .escape value => value.length + 2
  | .quote value => value.length + 2
  | .dash => 1
  | .dashes => 2
  | .slash => 1
  | .line => 0
  | .block => 0
  | .star => 0

def Lexer.text : Lexer → Bytes
  | .string value => value
  | .escape value => value
  | .quote value => value
  | _ => []

def AllPlain (tokens : List Token) : Prop := ∀ value, Token.string value ∈ tokens →
    plain value = true

theorem allPlain_other (tokens : List Token) (token : Token)
    (other : ∀ value, token ≠ .string value)
    (all : AllPlain tokens) : AllPlain (tokens ++ [token]) := by
  intro value member
  rcases List.mem_append.mp member with before | last
  · exact all value before
  · exact absurd (List.mem_singleton.mp last).symm (other value)

theorem allPlain_string (tokens : List Token) (value : Bytes) (here : plain value = true)
    (all : AllPlain tokens) :
    AllPlain (tokens ++ [.string value]) := by
  intro other member
  rcases List.mem_append.mp member with before | last
  · exact all other before
  · cases List.mem_singleton.mp last
    exact here

theorem start_cost (byte : UInt8) (done : List Token) :
    total (start byte done).2 + (start byte done).1.cost ≤ total done + 1 := by
  unfold start
  split_ifs <;> simp [Lexer.cost, Token.cost]

/-- A byte that ends the tokens before it. -/
theorem restart_cost (byte : UInt8) (done pushed : List Token) :
    total (start byte (done ++ pushed)).2 + (start byte (done ++ pushed)).1.cost ≤ total done +
      total pushed + 1 := by
  have next := start_cost byte (done ++ pushed)
  rwa [total_append] at next

theorem start_plain (byte : UInt8) (done : List Token) (all : AllPlain done) :
    AllPlain (start byte done).2 ∧ plain (start byte done).1.text = true := by
  unfold start
  split_ifs
  · exact ⟨all, rfl⟩
  · exact ⟨all, rfl⟩
  · exact ⟨all, rfl⟩
  · exact ⟨all, rfl⟩
  · exact ⟨all, rfl⟩
  · exact ⟨all, rfl⟩
  · exact ⟨allPlain_other done _ (by simp) all, rfl⟩

theorem unescape_cost (byte : UInt8) : (unescape byte).length ≤ 2 := by
  unfold unescape
  split_ifs <;> simp

/-- A pair that stands for two bytes is one that is left as it is. -/
theorem unescape_plain (byte : UInt8) (both : (unescape byte).length = 2) :
    plain (unescape byte) = true := by
  unfold unescape at both ⊢
  split_ifs at both ⊢
  all_goals simp at both
  rename_i pattern
  simp [plain, pattern]

theorem advance_cost (byte : UInt8) (lexer : Lexer) (done : List Token) :
    total (advance byte lexer done).2 + (advance byte lexer done).1.cost ≤ total done +
      lexer.cost + 1 := by
  cases lexer with
  | between => exact start_cost byte done
  | word letters =>
      simp only [advance]
      split
      · simp only [Lexer.cost, List.length_append, List.length_singleton]
        omega
      · exact restart_cost byte done [.word letters]
  | string value =>
      simp only [advance]
      split_ifs <;> simp only [Lexer.cost, List.length_append, List.length_singleton] <;> omega
  | escape value =>
      have most := unescape_cost byte
      simp only [advance, Lexer.cost, List.length_append]
      omega
  | quote value =>
      simp only [advance]
      split
      · simp only [Lexer.cost, List.length_append, List.length_singleton]
        omega
      · exact restart_cost byte done [.string value]
  | dash =>
      simp only [advance]
      split
      · simp [Lexer.cost]
      · exact restart_cost byte done [.symbol 45]
  | dashes =>
      simp only [advance]
      split
      · simp only [Lexer.cost]
        omega
      · exact restart_cost byte done [.symbol 45, .symbol 45]
  | slash =>
      simp only [advance]
      split
      · simp only [Lexer.cost]
        omega
      · exact restart_cost byte done [.symbol 47]
  | line =>
      simp only [advance]
      split <;> simp [Lexer.cost]
  | block =>
      simp only [advance]
      split <;> simp [Lexer.cost]
  | star =>
      simp only [advance]
      split_ifs <;> simp [Lexer.cost]

/-- A step that loses nothing has met no escape and no doubled quote. -/
theorem advance_plain (byte : UInt8) (lexer : Lexer) (done : List Token) (all : AllPlain done)
    (here : plain lexer.text = true)
    (tight : total (advance byte lexer done).2 + (advance byte lexer done).1.cost =
      total done + lexer.cost + 1) :
    AllPlain (advance byte lexer done).2 ∧ plain (advance byte lexer done).1.text = true := by
  cases lexer with
  | between => exact start_plain byte done all
  | word letters =>
      simp only [advance]
      split
      · exact ⟨all, rfl⟩
      · exact start_plain byte _ (allPlain_other done _ (by simp) all)
  -- inside a literal a byte is kept as it is unless it opens an escape or closes the literal
  | string value =>
      simp only [advance] at tight ⊢
      split_ifs with slash quote
      · exact ⟨all, here⟩
      · exact ⟨all, here⟩
      · exact ⟨all, plain_append value [byte] here (by simp [plain, slash, quote])⟩
  -- an escape writes one byte for two, unless it kept its backslash
  | escape value =>
      have most := unescape_cost byte
      simp only [advance, Lexer.cost, List.length_append] at tight
      exact ⟨all, plain_append value _ here (unescape_plain byte (by omega))⟩
  | quote value =>
      simp only [advance] at tight ⊢
      split_ifs at tight ⊢
      -- a doubled quote writes one byte for two, so the count falls behind
      · simp [Lexer.cost] at tight
      · exact start_plain byte _ (allPlain_string done value here all)
  | dash =>
      simp only [advance]
      split
      · exact ⟨all, rfl⟩
      · exact start_plain byte _ (allPlain_other done _ (by simp) all)
  | dashes =>
      simp only [advance]
      split
      · exact ⟨all, rfl⟩
      · apply start_plain byte
        intro value member
        simp only [List.mem_append, List.mem_cons, reduceCtorEq, List.not_mem_nil,
          or_false] at member
        exact all value member
  | slash =>
      simp only [advance]
      split
      · exact ⟨all, rfl⟩
      · exact start_plain byte _ (allPlain_other done _ (by simp) all)
  | line =>
      simp only [advance]
      split <;> exact ⟨all, rfl⟩
  | block =>
      simp only [advance]
      split <;> exact ⟨all, rfl⟩
  | star =>
      simp only [advance]
      split_ifs <;> exact ⟨all, rfl⟩

theorem finish_cost (lexer : Lexer) (done tokens : List Token)
    (ended : finish lexer done = some tokens) :
    total tokens = total done + lexer.cost ∧
      (AllPlain done → plain lexer.text = true → AllPlain tokens) := by
  cases lexer with
  | between =>
      cases ended
      exact ⟨rfl, fun all _ => all⟩
  | word letters =>
      cases ended
      exact ⟨by simp [Lexer.cost, Token.cost], fun all _ => allPlain_other done _ (by simp) all⟩
  | string value => cases ended
  | escape value => cases ended
  | quote value =>
      cases ended
      exact ⟨by simp [Lexer.cost, Token.cost], fun all here => allPlain_string done value here all⟩
  | dash =>
      cases ended
      exact ⟨by simp [Lexer.cost, Token.cost], fun all _ => allPlain_other done _ (by simp) all⟩
  | dashes =>
      cases ended
      refine ⟨by simp [Lexer.cost, Token.cost], fun all _ value member => ?_⟩
      simp only [List.mem_append, List.mem_cons, reduceCtorEq, List.not_mem_nil, or_false] at member
      exact all value member
  | slash =>
      cases ended
      exact ⟨by simp [Lexer.cost, Token.cost], fun all _ => allPlain_other done _ (by simp) all⟩
  | line =>
      cases ended
      exact ⟨rfl, fun all _ => all⟩
  | block => cases ended
  | star => cases ended

/-- The tokens of a text are no longer than the text, and where nothing is lost their
strings are plain. -/
theorem scan_cost (text : Bytes) (lexer : Lexer) (done tokens : List Token)
    (scanned : scan text lexer done = some tokens) :
    total tokens ≤ total done + lexer.cost + text.length ∧
      (AllPlain done → plain lexer.text = true →
        total tokens = total done + lexer.cost + text.length →
        AllPlain tokens) := by
  induction text generalizing lexer done with
  | nil =>
      obtain ⟨same, kept⟩ := finish_cost lexer done tokens scanned
      exact ⟨Nat.le_of_eq same, fun all here _ => kept all here⟩
  | cons byte rest ih =>
      obtain ⟨most, kept⟩ := ih _ _ scanned
      have spent := advance_cost byte lexer done
      simp only [List.length_cons]
      refine ⟨by omega, fun all here tight => ?_⟩
      obtain ⟨allNext, next⟩ := advance_plain byte lexer done all here (by omega)
      exact kept allNext next (by omega)

/-! The parser gives no more than the tokens hold. -/

def Clause.cost : Clause → List Value → Nat
  | .row, _ => 0
  | .value, current => rowCost current
  | .minus, current => rowCost current + 1
  | .pending last, current => rowCost current + last.cost
  | .ended, _ => 0
  | .closed, _ => 0

theorem rowCost_append (row : List Value) (value : Value) :
    rowCost (row ++ [value]) = rowCost row + (value.cost + 1) := by
  induction row with
  | nil => simp [rowCost, Nat.add_comm]
  | cons first rest ih =>
      simp only [List.cons_append, rowCost, ih]
      omega

theorem rowsCost_append (rows : List (List Value)) (row : List Value) :
    rowsCost (rows ++ [row]) = rowsCost rows + rowCost row := by
  induction rows with
  | nil => simp [rowsCost]
  | cons first rest ih => simp only [List.cons_append, rowsCost, ih, Nat.add_assoc]

theorem take_cost (token : Token) (clause next : Clause) (rows later : List (List Value))
    (current row : List Value)
    (taken : take token clause rows current = some (next, later, row)) :
    rowsCost later + next.cost row ≤ rowsCost rows + clause.cost current + token.cost := by
  unfold take at taken
  split at taken
  · split at taken <;> cases taken
    simp [Clause.cost, Token.cost, rowCost]
  · cases taken
    simp only [Clause.cost, Token.cost, Value.cost]
    omega
  · split at taken <;> cases taken
    simp only [Clause.cost, Token.cost, Value.cost, Bool.toNat_false]
    omega
  · split at taken <;> cases taken
    simp only [Clause.cost, Token.cost]
    omega
  · split at taken <;> cases taken
    simp only [Clause.cost, Token.cost, Value.cost, Bool.toNat_true]
    omega
  · cases taken
    simp only [Clause.cost, Token.cost, Value.cost, List.length_append]
    omega
  · split at taken
    · cases taken
      simp only [Clause.cost, Token.cost, rowCost_append]
      omega
    · split at taken <;> cases taken
      simp only [Clause.cost, Token.cost, rowsCost_append, rowCost_append]
      omega
  · split at taken
    · cases taken
      simp [Clause.cost]
    · split at taken <;> cases taken
      simp [Clause.cost]
  · cases taken

theorem clauses_cost (tokens : List Token) (clause : Clause) (rows found : List (List Value))
    (current : List Value)
    (parsed : clauses tokens clause rows current = some found) :
    rowsCost found ≤ rowsCost rows + clause.cost current + total tokens := by
  induction tokens generalizing clause rows current with
  | nil =>
      cases clause with
      | ended =>
          cases parsed
          simp [Clause.cost]
      | closed =>
          cases parsed
          simp [Clause.cost]
      | _ => cases parsed
  | cons token rest ih =>
      obtain ⟨⟨next, later, row⟩, taken, parsed⟩ := Option.bind_eq_some_iff.mp parsed
      have most := ih next later row parsed
      have spent := take_cost token clause next rows later current row taken
      simp only [total_cons]
      omega

/-- The strings among values. -/
def PlainValues (values : List Value) : Prop := ∀ text, Value.string text ∈ values →
    plain text = true

theorem plainValues_append (values : List Value) (value : Value) (all : PlainValues values)
    (here : ∀ text, value = .string text → plain text = true) :
    PlainValues (values ++ [value]) := by
  intro text member
  rcases List.mem_append.mp member with before | last
  · exact all text before
  · exact here text (List.mem_singleton.mp last).symm

structure PlainClause (clause : Clause) (rows : List (List Value))
    (current : List Value) : Prop where
  rows : ∀ row ∈ rows, PlainValues row
  current : PlainValues current
  pending : ∀ text, clause = .pending (.string text) → plain text = true

theorem take_plain (token : Token) (clause next : Clause) (rows later : List (List Value))
    (current row : List Value)
    (here : ∀ value, token = .string value → plain value = true)
    (all : PlainClause clause rows current)
    (taken : take token clause rows current = some (next, later, row)) :
    PlainClause next later row := by
  obtain ⟨before, values, last⟩ := all
  unfold take at taken
  split at taken
  · split at taken <;> cases taken
    exact ⟨before, by simp [PlainValues], by simp⟩
  · rename_i value
    cases taken
    exact ⟨before, values, by rintro text ⟨⟩; exact here value rfl⟩
  · split at taken <;> cases taken
    exact ⟨before, values, by simp⟩
  · split at taken <;> cases taken
    exact ⟨before, values, by simp⟩
  · split at taken <;> cases taken
    exact ⟨before, values, by simp⟩
  · rename_i more value
    cases taken
    refine ⟨before, values, ?_⟩
    rintro text ⟨⟩
    exact plain_append value more (last value rfl) (here more rfl)
  · rename_i byte value
    have longer : PlainValues (current ++ [value]) :=
      plainValues_append current value values fun text same => last text (by rw [same])
    split at taken
    · cases taken
      exact ⟨before, longer, by simp⟩
    · split at taken <;> cases taken
      refine ⟨fun row member => ?_, by simp [PlainValues], by simp⟩
      rcases List.mem_append.mp member with old | new
      · exact before row old
      · rw [List.mem_singleton.mp new]
        exact longer
  · split at taken
    · cases taken
      exact ⟨before, values, by simp⟩
    · split at taken <;> cases taken
      exact ⟨before, values, by simp⟩
  · cases taken

theorem clauses_plain (tokens : List Token) (clause : Clause) (rows found : List (List Value))
    (current : List Value)
    (strings : AllPlain tokens) (all : PlainClause clause rows current)
    (parsed : clauses tokens clause rows current = some found) :
    ∀ row ∈ found, PlainValues row := by
  induction tokens generalizing clause rows current with
  | nil =>
      cases clause with
      | ended =>
          cases parsed
          exact all.rows
      | closed =>
          cases parsed
          exact all.rows
      | _ => cases parsed
  | cons token rest ih =>
      obtain ⟨⟨next, later, row⟩, taken, parsed⟩ := Option.bind_eq_some_iff.mp parsed
      have here : ∀ value, token = .string value → plain value = true := by
        rintro value rfl
        exact strings value (by simp)
      have after := take_plain token clause next rows later current row here all taken
      exact ih next later row (fun value member => strings value
        (List.mem_cons_of_mem _ member)) after parsed

/-! A row of literals as text, from its first value to its bracket. -/

def literal : Value → Bytes
  | .string value => 39 :: (value ++ [39])
  | .number negative digits => (if negative then [45] else []) ++ digits

def tuple : List Value → Bytes
  | [] => [41]
  | [value] => literal value ++ [41]
  | value :: rest => literal value ++ 44 :: tuple rest

theorem literal_length (value : Value) : (literal value).length = value.cost := by
  cases value with
  | string text => simp [literal, Value.cost]
  | number negative digits => cases negative <;> simp [literal, Value.cost, Nat.add_comm]

theorem tuple_length (value : Value) (rest : List Value) :
    (tuple (value :: rest)).length + 1 = rowCost (value :: rest) := by
  induction rest generalizing value with
  | nil => simp [tuple, rowCost, literal_length]
  | cons next rest ih =>
      have tail := ih next
      simp only [tuple, List.length_append, List.length_cons, literal_length] at tail ⊢
      simp only [rowCost] at tail ⊢
      omega

/-- The beginning of a statement, up to the first value. -/
structure Header (text : Bytes) (table : Bytes) (columns : List Bytes)
    (tokens : List Token) : Prop where
  lexed : ∀ rest, scan (text ++ rest) .between [] = scan rest .between tokens
  parsed : ∀ more, statement (tokens ++ more) = (clauses more .value [] []).map fun rows =>
    ⟨table, columns, rows⟩

/-! The tokens that are done are only added to. -/

theorem start_done (byte : UInt8) (front done : List Token) :
    start byte (front ++ done) = ((start byte done).1, front ++ (start byte done).2) := by
  unfold start
  split_ifs <;> simp

theorem advance_done (byte : UInt8) (lexer : Lexer) (front done : List Token) :
    advance byte lexer (front ++ done) =
      ((advance byte lexer done).1, front ++ (advance byte lexer done).2) := by
  cases lexer with
  | between => exact start_done byte front done
  | string value =>
      simp only [advance]
      split_ifs <;> rfl
  | escape value => rfl
  | star =>
      simp only [advance]
      split_ifs <;> rfl
  | line =>
      simp only [advance]
      split <;> rfl
  | block =>
      simp only [advance]
      split <;> rfl
  | _ =>
      simp only [advance, List.append_assoc]
      split
      · rfl
      · exact start_done byte front _

theorem finish_done (lexer : Lexer) (front done : List Token) :
    finish lexer (front ++ done) = (finish lexer done).map (front ++ ·) := by
  cases lexer <;> simp [finish]

theorem scan_done (text : Bytes) (lexer : Lexer) (front done : List Token) :
    scan text lexer (front ++ done) = (scan text lexer done).map (front ++ ·) := by
  induction text generalizing lexer done with
  | nil => exact finish_done lexer front done
  | cons byte rest ih =>
      simp only [scan, advance_done]
      exact ih _ _

/-- What a statement with this header says is in the tokens of its values. -/
theorem header_reads (text table : Bytes) (columns : List Bytes) (tokens : List Token)
    (header : Header text table columns tokens) (rest : Bytes) :
    read (text ++ rest) = ((scan rest .between []).bind
      fun more => clauses more .value [] []).map fun rows =>
      ⟨table, columns, rows⟩ := by
  have scanned := scan_done rest .between tokens []
  rw [List.append_nil] at scanned
  rw [read, header.lexed, scanned]
  cases scan rest .between [] with
  | none => rfl
  | some more => exact header.parsed more

/-- A statement that gives back all values cannot have lost a byte to an escape. -/
theorem tuple_plain (text table : Bytes) (columns : List Bytes) (tokens : List Token)
    (header : Header text table columns tokens) (first : Value) (rest values : List Value)
    (shorter : rowCost (first :: rest) ≤ rowCost values)
    (reads : read (text ++ tuple (first :: rest)) = some ⟨table, columns, [values]⟩) :
    rowCost (first :: rest) = rowCost values ∧ PlainValues values := by
  rw [header_reads text table columns tokens header] at reads
  obtain ⟨rows, parsed, same⟩ := Option.map_eq_some_iff.mp reads
  obtain ⟨more, scanned, parsed⟩ := Option.bind_eq_some_iff.mp parsed
  simp only [Insert.mk.injEq, true_and] at same
  subst same
  obtain ⟨most, strings⟩ := scan_cost _ _ _ _ scanned
  have given := clauses_cost more .value [] [values] [] parsed
  have written := tuple_length first rest
  have one : rowsCost [values] = rowCost values := by simp [rowsCost]
  have none_ : rowsCost [] = 0 := rfl
  have empty : Clause.cost .value [] = 1 := rfl
  have open_ : Lexer.cost .between = 0 := rfl
  simp only [total_nil] at most strings
  refine ⟨by omega, ?_⟩
  have plain_ : AllPlain more := strings (by simp [AllPlain]) rfl (by omega)
  have nothing : PlainClause .value [] [] := ⟨by simp, by simp [PlainValues], by simp⟩
  exact clauses_plain more .value [] [values] [] plain_ nothing parsed values (by simp)

/-! Plain values are read as they are written. -/

theorem scan_plain (value before : Bytes) (rest : Bytes) (done : List Token)
    (here : plain value = true) :
    scan (value ++ rest) (.string before) done = scan rest (.string (before ++ value)) done := by
  fun_induction plain value generalizing before with
  | case1 => simp
  | case2 byte tail ih =>
      simp only [Bool.and_eq_true, decide_eq_true_eq] at here
      have kept : unescape byte = [92, byte] := by
        rcases here.1 with rfl | rfl <;> rfl
      have next := ih (before ++ [92, byte]) here.2
      simp only [List.cons_append, scan, advance, if_true, kept, next, List.append_assoc,
        List.nil_append]
  | case3 byte tail lone ih =>
      simp only [Bool.and_eq_true, decide_eq_true_eq, ne_eq] at here
      have next := ih (before ++ [byte]) here.2
      simp only [List.cons_append, scan, advance, here.1.1, here.1.2, if_false, next,
        List.append_assoc, List.nil_append]

theorem digit_letter (byte : UInt8) (digit : 48 ≤ byte ∧ byte ≤ 57) :
    letter byte = true ∧ blank byte = false := by
  have low : 48 ≤ byte.toNat := UInt8.le_iff_toNat_le.mp digit.1
  have high : byte.toNat ≤ 57 := UInt8.le_iff_toNat_le.mp digit.2
  constructor
  · simp [letter, digit]
  · simp only [blank, decide_eq_false_iff_not, not_or, not_and, UInt8.le_iff_toNat_le]
    refine ⟨?_, fun _ => ?_⟩
    · rintro rfl
      simp at low
    · change ¬ byte.toNat ≤ 13
      omega

theorem scan_digits (digits before : Bytes) (rest : Bytes) (done : List Token)
    (all : ∀ byte ∈ digits, 48 ≤ byte ∧ byte ≤ 57) :
    scan (digits ++ rest) (.word before) done = scan rest (.word (before ++ digits)) done := by
  induction digits generalizing before with
  | nil => simp
  | cons byte tail ih =>
      have here := (digit_letter byte (all byte (by simp))).1
      have next := ih (before ++ [byte]) fun other member =>
        all other (List.mem_cons_of_mem _ member)
      simp only [List.cons_append, scan, advance, here, if_true, next, List.append_assoc,
        List.nil_append]

def Value.tokens : Value → List Token
  | .string text => [.string text]
  | .number negative digits => (if negative then [.symbol 45] else []) ++ [.word digits]

def tupleTokens : List Value → List Token
  | [] => [.symbol 41]
  | [value] => value.tokens ++ [.symbol 41]
  | value :: rest => value.tokens ++ .symbol 44 :: tupleTokens rest

def Fine : Value → Prop
  | .string text => plain text = true
  | .number _ digits => number digits = true

theorem scan_number (digits : Bytes) (byte : UInt8) (rest : Bytes) (done : List Token)
    (lexer : Lexer)
    (fine : number digits = true) (closes : letter byte = false) (after : List Token)
    (begins : ∀ digit, 48 ≤ digit ∧ digit ≤ 57 →
      advance digit lexer done = (.word [digit], after)) :
    scan (digits ++ byte :: rest) lexer done = scan (byte :: rest) .between
      (after ++ [.word digits]) := by
  obtain ⟨some_, all⟩ := number_digits.mp fine
  cases digits with
  | nil => exact absurd rfl some_
  | cons first more =>
      have tail := scan_digits more [first] (byte :: rest) after fun other member =>
        all other (List.mem_cons_of_mem _ member)
      simp only [List.cons_append, scan, begins first (all first (by simp))]
      simp only [List.cons_append, scan, List.nil_append] at tail
      rw [tail]
      simp only [advance, closes, Bool.false_eq_true, if_false]

/-- A value, and the comma or bracket after it. -/
theorem scan_literal (value : Value) (byte : UInt8) (rest : Bytes) (done : List Token)
    (fine : Fine value)
    (closes : byte = 44 ∨ byte = 41) :
    scan (literal value ++ byte :: rest) .between done = scan rest .between
      (done ++ value.tokens ++ [.symbol byte]) := by
  have mark : letter byte = false ∧ byte ≠ 39 ∧
      ∀ done, start byte done = (.between, done ++ [.symbol byte]) := by
    rcases closes with rfl | rfl <;> exact ⟨rfl, by decide, fun _ => rfl⟩
  obtain ⟨other, apart, separates⟩ := mark
  cases value with
  | string text =>
      have inside := scan_plain text [] (39 :: byte :: rest) done fine
      have opens : start 39 done = (.string [], done) := rfl
      simp only [literal, List.cons_append, List.append_assoc, List.nil_append, scan, advance,
        opens]
      rw [inside]
      simp [scan, advance, apart, separates, Value.tokens]
  | number negative digits =>
      have digit : ∀ digit, 48 ≤ digit ∧ digit ≤ 57 →
          ∀ done, start digit done = (.word [digit], done) := by
        intro digit bounds done
        obtain ⟨letters, full⟩ := digit_letter digit bounds
        simp [start, letters, full]
      cases negative with
      | false =>
          have next := scan_number digits byte rest done .between fine other done
            fun digit_ bounds => digit digit_ bounds done
          simp only [literal, Bool.false_eq_true, if_false, List.nil_append, next, scan, advance,
            separates,
            Value.tokens, List.append_assoc]
      | true =>
          have minus : start 45 done = (.dash, done) := rfl
          have next := scan_number digits byte rest done .dash fine other (done ++ [.symbol 45])
            fun digit_ bounds => by
            have apart_ : digit_ ≠ 45 := by
              rintro rfl
              exact absurd bounds.1 (by decide)
            simp only [advance, apart_, if_false, digit digit_ bounds]
          simp only [literal, if_true, List.cons_append, List.nil_append, scan, advance,
            minus] at next ⊢
          rw [next]
          simp only [separates, Value.tokens, if_true, List.append_assoc, List.cons_append,
            List.nil_append]

theorem scan_tuple (value : Value) (rest : List Value) (done : List Token)
    (fine : ∀ other ∈ value :: rest, Fine other) :
    scan (tuple (value :: rest)) .between done = some (done ++ tupleTokens (value :: rest)) := by
  induction rest generalizing value done with
  | nil =>
      rw [tuple, scan_literal value 41 [] done (fine value (by simp)) (Or.inr rfl)]
      simp [scan, finish, tupleTokens]
  | cons next rest ih =>
      have tail := ih next (done ++ value.tokens ++ [.symbol 44]) fun other member =>
        fine other (List.mem_cons_of_mem _ member)
      rw [tuple, scan_literal value 44 _ done (fine value (by simp)) (Or.inl rfl), tail]
      · simp [tupleTokens]
      · simp

theorem clauses_literal (value : Value) (byte : UInt8) (more : List Token)
    (rows : List (List Value))
    (current : List Value) (fine : Fine value) :
    clauses (value.tokens ++ .symbol byte :: more) .value rows current =
      (take (.symbol byte) (.pending value) rows current).bind fun next =>
        clauses more next.1 next.2.1 next.2.2 := by
  cases value with
  | string text => rfl
  | number negative digits =>
      have digits_ : number digits = true := fine
      cases negative <;> simp [Value.tokens, clauses, take, digits_]

theorem clauses_tuple (value : Value) (rest : List Value) (rows : List (List Value))
    (current : List Value)
    (fine : ∀ other ∈ value :: rest, Fine other) :
    clauses (tupleTokens (value :: rest)) .value rows current =
      some (rows ++ [current ++ value :: rest]) := by
  induction rest generalizing value current with
  | nil =>
      rw [tupleTokens, clauses_literal value 41 [] rows current (fine value (by simp))]
      simp [take, clauses]
  | cons next rest ih =>
      have tail := ih next (current ++ [value]) fun other member =>
        fine other (List.mem_cons_of_mem _ member)
      rw [tupleTokens, clauses_literal value 44 _ rows current (fine value (by simp))]
      · simp [take, tail]
      · simp

theorem tuple_reads (text table : Bytes) (columns : List Bytes) (tokens : List Token)
    (header : Header text table columns tokens) (value : Value) (rest : List Value)
    (fine : ∀ other ∈ value :: rest, Fine other) :
    read (text ++ tuple (value :: rest)) = some ⟨table, columns, [value :: rest]⟩ := by
  rw [header_reads text table columns tokens header, scan_tuple value rest [] fine]
  simp only [List.nil_append, Option.bind_some, clauses_tuple value rest [] [] fine,
    Option.map_some]

end MuduoChat.SqlText
