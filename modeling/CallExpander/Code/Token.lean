import CallExpander.Code.Fault
import CallExpander.Number.Render

/-!
Tokens of program text: what they are, how messages name them, and the words with a meaning of
their own.
-/

namespace CallExpander.Code

open CallExpander.Number

/-- A token. Words that are reserved are words like any other; the grammar tells them apart. -/
inductive Token where
  | eof
  | word (text : String)
  | punct (text : String)
  | num (value : Binary64) (raw : String)
  | bigint (value : Nat) (raw : String)
  | str (value raw : String)
  | pattern (body flags : String)
  | templateText
  | tagStart
  | tagEnd
  | markupName (name : String)
  | markupText (value raw : String)
  | invalid (fault : Fault)
  deriving Repr, DecidableEq, Inhabited

/-- A fault that keeps a token from being read, as messages show it. Positions are counted from
one. -/
def Fault.dump (fault : Fault) : String :=
  "<lexing error: Error \x7b error: (" ++ toString (fault.span.lo + 1) ++ ".."
    ++ toString (fault.span.hi + 1) ++ ", " ++ fault.problem.label ++ ") \x7d>"

/-- A token as messages show it. -/
def Token.dump : Token → String
  | .eof => "<eof>"
  | .word text => text
  | .punct text => text
  | .num value raw => "numeric literal (" ++ value.keyText ++ ", " ++ raw ++ ")"
  | .bigint value raw => "bigint literal (" ++ toString value ++ ", " ++ raw ++ ")"
  | .str value raw => "string literal (" ++ value ++ ", " ++ raw ++ ")"
  | .pattern body flags => "regexp literal (" ++ body ++ ", " ++ flags ++ ")"
  | .templateText => "template token"
  | .tagStart => "< (jsx tag start)"
  | .tagEnd => "> (jsx tag end)"
  | .markupName name => "jsx name (" ++ name ++ ")"
  | .markupText _ raw => "jsx text (" ++ raw ++ ")"
  | .invalid fault => fault.dump

def keywords : List String :=
  ["await", "break", "case", "catch", "class", "const", "continue", "debugger", "default", "delete",
    "do", "else", "export", "extends", "false", "finally", "for", "function", "if", "import", "in",
    "instanceof", "let", "new", "null", "return", "super", "switch", "this", "throw", "true", "try",
    "typeof", "var", "void", "while", "with", "yield"]

def isKeyword (word : String) : Bool := keywords.contains word

/-- Words that are noted where they are names in strict code. -/
def strictWords : List String :=
  ["implements", "interface", "let", "package", "private", "protected", "public", "static", "yield"]

/-- Operators between two operands, with how tightly they bind. -/
def binaryOperators : List (String × Nat) :=
  [("??", 1), ("||", 1), ("&&", 2), ("|", 3), ("^", 4), ("&", 5), ("==", 6), ("!=", 6), ("===", 6),
    ("!==", 6), ("<", 7), (">", 7), ("<=", 7), (">=", 7), ("<<", 8), (">>", 8), (">>>", 8),
    ("+", 9), ("-", 9), ("*", 10), ("/", 10), ("%", 10), ("**", 11)]

def assignOperators : List String :=
  ["=", "+=", "-=", "*=", "/=", "%=", "**=", "<<=", ">>=", ">>>=", "&=", "|=", "^=", "&&=", "||=",
    "??="]

namespace Token

/-- Whether a token is an operator sign between two operands. -/
def isBinaryOperator : Token → Bool
  | .punct text => binaryOperators.any fun op => op.1 == text
  | _ => false

def isWord : Token → Bool
  | .word _ => true
  | _ => false

def isString : Token → Bool
  | .str .. => true
  | _ => false

/-- Whether a token is a number of either kind. -/
def isNumber : Token → Bool
  | .num .. | .bigint .. => true
  | _ => false

def expressionWords : List String :=
  ["await", "class", "delete", "false", "function", "import", "new", "null", "super", "this",
    "throw", "true", "typeof", "void", "yield"]

def startsExpression : Token → Bool
  | .word text => !isKeyword text || expressionWords.contains text
  | .punct text =>
    ["(", "[", "\x7b", "!", "~", "`", "++", "--", "+", "-", "<", "#", "@"].contains text
  | .num .. | .bigint .. | .str .. | .pattern .. | .tagStart | .markupText .. => true
  | _ => false

def takesLineComment (token : Token) : Bool := !token.isBinaryOperator

/-- Whether a comment inside a line that follows the token belongs to it. -/
def takesBlockComment : Token → Bool
  | .word text => !isKeyword text
  | .punct text => text == ";" || text == "\x7b" || text == "\x7d" || text == "$\x7b"
  | .num .. | .bigint .. | .str .. | .pattern .. | .markupText .. => true
  | _ => false

/-- Whether a name can be declared by a token that follows the word `let`. -/
def followsLet : Token → Bool
  | .word text => !isKeyword text || ["let", "yield", "await"].contains text
  | .punct text => text == "[" || text == "\x7b"
  | _ => false

end Token

/-- Signs, longer ones first. -/
def punctuators : List String :=
  [">>>=", "...", "===", "!==", "**=", "<<=", ">>=", ">>>", "&&=", "||=", "??=", "=>", "==", "!=",
    "<=", ">=", "&&", "||", "??", "++", "--", "+=", "-=", "*=", "/=", "%=", "&=", "|=", "^=",
    "<<", ">>", "**", "\x7b", "\x7d", "(", ")", "[", "]", ";", ",", "<", ">", "+", "-", "*", "/",
    "%", "&", "|", "^", "!", "~", "?", ":", "=", ".", "@", "#", "`"]

end CallExpander.Code
