/-!
# Operators

The three signs that compare two operands and the four operators that join the
values of an expression.  Each is written as one symbol, and reading a symbol
undoes writing it.
-/

namespace ConditionalAssignment

/-- A sign that compares two operands. -/
inductive ComparisonOperator where
  /-- The left operand is less. -/
  | less
  /-- The left operand is greater. -/
  | greater
  /-- The operands are equal. -/
  | equal
deriving DecidableEq

namespace ComparisonOperator

/-- The symbol of a comparison sign. -/
def symbol : ComparisonOperator → String
  | less => "<"
  | greater => ">"
  | equal => "="

/-- The comparison sign written as a symbol. -/
def ofSymbol? : String → Option ComparisonOperator
  | "<" => some less
  | ">" => some greater
  | "=" => some equal
  | _ => none

/-- A comparison sign is read from its symbol and from no other text. -/
theorem ofSymbol?_eq_some_iff
    {text : String}
    {operator : ComparisonOperator} :
    ofSymbol? text = some operator ↔ text = operator.symbol := by
  constructor
  · intro found
    unfold ofSymbol? at found
    split at found <;> cases found <;> rfl
  · rintro rfl
    cases operator <;> rfl

end ComparisonOperator

/-- An operator that joins two values of an expression. -/
inductive ArithmeticOperator where
  /-- Addition. -/
  | add
  /-- Subtraction. -/
  | subtract
  /-- Multiplication. -/
  | multiply
  /-- Division. -/
  | divide
deriving DecidableEq

namespace ArithmeticOperator

/-- The symbol of an arithmetic operator. -/
def symbol : ArithmeticOperator → String
  | add => "+"
  | subtract => "-"
  | multiply => "*"
  | divide => "/"

/-- The arithmetic operator written as a symbol. -/
def ofSymbol? : String → Option ArithmeticOperator
  | "+" => some add
  | "-" => some subtract
  | "*" => some multiply
  | "/" => some divide
  | _ => none

/-- An arithmetic operator is read from its symbol and from no other text. -/
theorem ofSymbol?_eq_some_iff
    {text : String}
    {operator : ArithmeticOperator} :
    ofSymbol? text = some operator ↔ text = operator.symbol := by
  constructor
  · intro found
    unfold ofSymbol? at found
    split at found <;> cases found <;> rfl
  · rintro rfl
    cases operator <;> rfl

end ArithmeticOperator

end ConditionalAssignment
