/-
DelegatedEscrow/Json/Token.lean

JSON text is a sequence of tokens with white space between them.  `Token.chars`
spells a token, and `Token.ofText?` takes a text apart.

The scanner looks at one character at a time.  Outside of strings, a longest run
of letters, digits, signs and points is one token, which has to be a word or a
number; this is why two such tokens never touch.
-/
import DelegatedEscrow.Json.Literal
import DelegatedEscrow.Json.Quoted

namespace DelegatedEscrow.Json

/-- A value without parts.  A string with a lone half of a code-unit pair is
well-formed, but holds no text. -/
inductive Scalar where
  | null
  | bool (b : Bool)
  | number (l : Literal)
  | text (t : Option String)
deriving DecidableEq, Repr

inductive Token where
  | openArray
  | closeArray
  | openObject
  | closeObject
  | comma
  | colon
  | scalar (s : Scalar)
deriving DecidableEq, Repr

/-- A scalar as it is written. -/
def Scalar.chars : Scalar → List Char
  | null => "null".toList
  | bool true => "true".toList
  | bool false => "false".toList
  | number l => l.chars
  | text t => '"' :: Quoted.encode t ++ ['"']

namespace Token

/-- A token as it is written. -/
def chars : Token → List Char
  | openArray => ['[']
  | closeArray => [']']
  | openObject => ['\x7b']
  | closeObject => ['\x7d']
  | comma => [',']
  | colon => [':']
  | scalar s => s.chars

/-! ### Scanning -/

/-- White space between tokens. -/
def isBlank (c : Char) : Bool := c = ' ' || c = '\n' || c = '\t' || c = '\r'

/-- Characters that words and numbers are made of. -/
def isBare (c : Char) : Bool := c.isAlphanum || c = '+' || c = '-' || c = '.'

/-- Reads a word or a number. -/
def ofRun? (run : List Char) : Option Token :=
  if run = "null".toList then some (scalar .null)
  else if run = "true".toList then some (scalar (.bool true))
  else if run = "false".toList then some (scalar (.bool false))
  else (Literal.ofChars? run).map fun l => scalar (.number l)

/-- Reads a token of one character. -/
def ofMark? : Char → Option Token
  | '[' => some openArray
  | ']' => some closeArray
  | '\x7b' => some openObject
  | '\x7d' => some closeObject
  | ',' => some comma
  | ':' => some colon
  | _ => none

/-- Where the scanner is.  What has been read of a token is kept in reverse. -/
inductive Scan where
  | between
  | run (read : List Char)
  | quoted (read : List Char)
  /-- Behind a backslash. -/
  | escaped (read : List Char)
deriving DecidableEq, Repr

namespace Scan

/-- A character after the end of a token. -/
def begin? (c : Char) : Option (List Token × Scan) :=
  if isBlank c then some ([], between)
  else if isBare c then some ([], run [c])
  else if c = '"' then some ([], quoted [])
  else (ofMark? c).map fun t => ([t], between)

/-- One more character, and the tokens that it completes. -/
def step? : Scan → Char → Option (List Token × Scan)
  | between, c => begin? c
  | run read, c =>
    if isBare c then some ([], run (c :: read))
    else do
      let t ← ofRun? read.reverse
      let (ts, next) ← begin? c
      return (t :: ts, next)
  | quoted read, c =>
    if c = '"' then
      (Quoted.decode? read.reverse).map fun t => ([scalar (.text t)], between)
    else if c = '\\' then some ([], escaped (c :: read))
    else some ([], quoted (c :: read))
  | escaped read, c => some ([], quoted (c :: read))

/-- The end of the text, and the token that it completes. -/
def finish? : Scan → Option (List Token)
  | between => some []
  | run read => (ofRun? read.reverse).map ([·])
  | quoted _ | escaped _ => none

/-- The tokens from here to the end of the text. -/
def tokens? : Scan → List Char → Option (List Token)
  | s, [] => s.finish?
  | s, c :: cs => do
    let (ts, next) ← s.step? c
    return ts ++ (← next.tokens? cs)

end Scan

/-- The tokens of a text. -/
def ofText? (text : String) : Option (List Token) := Scan.between.tokens? text.toList

end Token

end DelegatedEscrow.Json
