import DollarMath.Text.DecimalDigit

/-!
# Regular expressions

A regular expression describes a set of texts.  A text belongs to the set when the expression that
is left after reading all its characters, the derivative, accepts the empty text.  The notation
that is read here has characters, `.`, `\d`, escaped punctuation, groups, `|`, `*`, `+` and `?`.
-/

namespace DollarMath

/-- A set of characters. -/
inductive CharacterClass where
  /-- One character. -/
  | only (c : Char)
  /-- The decimal digits. -/
  | digit
  /-- All characters that stay on their line. -/
  | onLine
  deriving DecidableEq, Repr

/-- Whether a character is in the class. -/
def CharacterClass.contains : CharacterClass → Char → Bool
  | .only letter, c => letter == c
  | .digit, c => Text.isDecimalDigit c
  | .onLine, c => c != '\n'

/-- A description of a set of texts. -/
inductive RegularExpression where
  /-- No text. -/
  | never
  /-- The empty text. -/
  | empty
  /-- The texts of one character of a class. -/
  | one (characters : CharacterClass)
  /-- A text of the first expression, then one of the second. -/
  | sequence (first second : RegularExpression)
  /-- The texts of both expressions. -/
  | either (first second : RegularExpression)
  /-- Any number of texts of the expression, one behind the other. -/
  | many (expression : RegularExpression)
  deriving DecidableEq, Repr

namespace RegularExpression

/-- The two expressions one behind the other, with nothing kept behind `never`. -/
def followedBy : RegularExpression → RegularExpression → RegularExpression
  | .never, _ => .never
  | .empty, second => second
  | first, second => .sequence first second

/-- The two expressions side by side, without `never`. -/
def orElse : RegularExpression → RegularExpression → RegularExpression
  | .never, second => second
  | first, .never => first
  | first, second => .either first second

/-- Whether the empty text belongs to an expression. -/
def acceptsEmpty : RegularExpression → Bool
  | .never => false
  | .empty => true
  | .one _ => false
  | .sequence first second => first.acceptsEmpty && second.acceptsEmpty
  | .either first second => first.acceptsEmpty || second.acceptsEmpty
  | .many _ => true

/-- What may follow `c` in the texts of an expression that start with it. -/
def derivative (c : Char) : RegularExpression → RegularExpression
  | .never => .never
  | .empty => .never
  | .one characters => if characters.contains c then .empty else .never
  | .sequence first second =>
      let inFirst := (first.derivative c).followedBy second
      if first.acceptsEmpty then inFirst.orElse (second.derivative c) else inFirst
  | .either first second => (first.derivative c).orElse (second.derivative c)
  | .many expression => (expression.derivative c).followedBy (.many expression)

/-- Whether the whole text belongs to an expression. -/
def accepts (expression : RegularExpression) (text : Text) : Bool :=
  (text.foldl (fun expression c => expression.derivative c) expression).acceptsEmpty

/-- A group that is being read. -/
structure Group where
  /-- The alternatives before the last bar. -/
  alternatives : RegularExpression
  /-- The parts behind the last bar, the latest first. -/
  parts : List RegularExpression

namespace Group

/-- A group of which nothing has been read. -/
def start : Group :=
  ⟨.never, []⟩

/-- The group with one more part. -/
def push (group : Group) (part : RegularExpression) : Group :=
  { group with parts := part :: group.parts }

/-- The expression that the whole group stands for. -/
def close (group : Group) : RegularExpression :=
  group.alternatives.orElse (group.parts.foldl (fun behind part => part.followedBy behind) .empty)

/-- The group behind a bar. -/
def bar (group : Group) : Group :=
  ⟨group.close, []⟩

/-- The group with its latest part changed, if it has one. -/
def changeLast? (change : RegularExpression → RegularExpression) (group : Group) : Option Group :=
  match group.parts with
  | [] => none
  | part :: parts => some { group with parts := change part :: parts }

end Group

/-- The characters that have a meaning of their own and are not read as themselves. -/
def isReserved (c : Char) : Bool :=
  (Text.ofString "[]\x7b\x7d^$").contains c

/-- Reads the rest of an expression inside `group`, around which the groups of `outer` are open. -/
def read? (group : Group) (outer : List Group) : Text → Option RegularExpression
  | [] =>
      match outer with
      | [] => some group.close
      | _ :: _ => none
  | '(' :: text => read? .start (group :: outer) text
  | ')' :: text =>
      match outer with
      | [] => none
      | parent :: outer => read? (parent.push group.close) outer text
  | '|' :: text => read? group.bar outer text
  | '*' :: text => (group.changeLast? .many).bind fun group => read? group outer text
  | '+' :: text =>
      (group.changeLast? fun part => .sequence part (.many part)).bind fun group =>
        read? group outer text
  | '?' :: text =>
      (group.changeLast? fun part => .either part .empty).bind fun group => read? group outer text
  | '.' :: text => read? (group.push (.one .onLine)) outer text
  | '\\' :: 'd' :: text => read? (group.push (.one .digit)) outer text
  | '\\' :: c :: text =>
      if c.isAlphanum then none else read? (group.push (.one (.only c))) outer text
  | c :: text =>
      if c = '\\' ∨ isReserved c then none else read? (group.push (.one (.only c))) outer text

/-- The expression that a text is the notation of. -/
def ofText? (text : Text) : Option RegularExpression :=
  read? .start [] text

end RegularExpression
end DollarMath
