import CallExpander.Json.Reader

/-!
Places in a text of settings, and what can be wrong with such a text.
-/

namespace CallExpander.Yaml

/-- A place in a text: how many characters are before it, its line and its column, all counted from
zero. -/
structure Mark where
  index : Nat := 0
  line : Nat := 0
  column : Nat := 0
  deriving Repr, DecidableEq, Inhabited

/-- Whether two marks are the same place of the same line. -/
def Mark.meets (a b : Mark) : Bool := a.line == b.line && a.column == b.column

/-- The mark as it is written behind messages; the start of the text is not written. -/
def Mark.render (mark : Mark) : String :=
  if mark.meets {} then ""
  else " at line " ++ toString (mark.line + 1) ++ " column " ++ toString (mark.column + 1)

/-- What keeps a text from being read. -/
inductive Problem where
  | strayCharacter
  | missingColon
  | dashHere
  | keyHere
  | valueHere
  | unknownDirective
  | missingDirective
  | directiveCharacter
  | missingLineEnd
  | versionPoint
  | longVersion
  | missingVersion
  | missingBlank
  | missingGap
  | missingName
  | missingBang
  | missingAngle
  | missingAddress
  | badOctet
  | leadingOctet
  | trailingOctet
  | zeroIndent
  | tabInBlock
  | tabInPlain
  | documentMark
  | endOfText
  | unknownEscape
  | badDigits
  | badCode
  | strayColon
  | missingDocument
  | versionTwice
  | unknownVersion
  | handleTwice
  | unknownHandle
  | missingContent
  | missingKey
  | missingBrace
  deriving Repr, DecidableEq, Inhabited

def Problem.message : Problem → String
  | .strayCharacter => "found character that cannot start any token"
  | .missingColon => "could not find expected ':'"
  | .dashHere => "block sequence entries are not allowed in this context"
  | .keyHere => "mapping keys are not allowed in this context"
  | .valueHere => "mapping values are not allowed in this context"
  | .unknownDirective => "found unknown directive name"
  | .missingDirective => "could not find expected directive name"
  | .directiveCharacter => "found unexpected non-alphabetical character"
  | .missingLineEnd => "did not find expected comment or line break"
  | .versionPoint => "did not find expected digit or '.' character"
  | .longVersion => "found extremely long version number"
  | .missingVersion => "did not find expected version number"
  | .missingBlank => "did not find expected whitespace"
  | .missingGap => "did not find expected whitespace or line break"
  | .missingName => "did not find expected alphabetic or numeric character"
  | .missingBang => "did not find expected '!'"
  | .missingAngle => "did not find the expected '>'"
  | .missingAddress => "did not find expected tag URI"
  | .badOctet => "did not find URI escaped octet"
  | .leadingOctet => "found an incorrect leading UTF-8 octet"
  | .trailingOctet => "found an incorrect trailing UTF-8 octet"
  | .zeroIndent => "found an indentation indicator equal to 0"
  | .tabInBlock => "found a tab character where an indentation space is expected"
  | .tabInPlain => "found a tab character that violates indentation"
  | .documentMark => "found unexpected document indicator"
  | .endOfText => "found unexpected end of stream"
  | .unknownEscape => "found unknown escape character"
  | .badDigits => "did not find expected hexdecimal number"
  | .badCode => "found invalid Unicode character escape code"
  | .strayColon => "found unexpected ':'"
  | .missingDocument => "did not find expected <document start>"
  | .versionTwice => "found duplicate %YAML directive"
  | .unknownVersion => "found incompatible YAML document"
  | .handleTwice => "found duplicate %TAG directive"
  | .unknownHandle => "found undefined tag handle"
  | .missingContent => "did not find expected node content"
  | .missingKey => "did not find expected key"
  | .missingBrace => "did not find expected ',' or '\x7d'"

/-- What was being read when a problem was found. -/
inductive Activity where
  | token
  | key
  | directive
  | version
  | handle
  | handleName
  | handleEnd
  | handleAddress
  | tag
  | tagAddress
  | anchor
  | alias
  | blockText
  | quotedText
  | escape
  | plainText
  | node
  | blockNode
  | flowNode
  | blockMap
  | flowMap
  deriving Repr, DecidableEq, Inhabited

def Activity.message : Activity → String
  | .token => "while scanning for the next token"
  | .key => "while scanning a simple key"
  | .directive => "while scanning a directive"
  | .version => "while scanning a %YAML directive"
  | .handle => "while scanning a %TAG directive"
  | .handleName => "while scanning a tag directive"
  | .handleEnd => "while parsing a tag directive"
  | .handleAddress => "while parsing a %TAG directive"
  | .tag => "while scanning a tag"
  | .tagAddress => "while parsing a tag"
  | .anchor => "while scanning an anchor"
  | .alias => "while scanning an alias"
  | .blockText => "while scanning a block scalar"
  | .quotedText => "while scanning a quoted scalar"
  | .escape => "while parsing a quoted scalar"
  | .plainText => "while scanning a plain scalar"
  | .node => "while parsing a node"
  | .blockNode => "while parsing a block node"
  | .flowNode => "while parsing a flow node"
  | .blockMap => "while parsing a block mapping"
  | .flowMap => "while parsing a flow mapping"

inductive Fault where
  /-- The value of a key, or the whole, is not what is expected. -/
  | value (key : Option String) (cause : Json.Cause) (mark : Mark)
  /-- The text cannot be read: what is wrong, and what was being read since when. -/
  | text (problem : Problem) (mark : Mark) (during : Option (Activity × Mark))
  /-- A character that no text can hold, so many bytes behind the start. -/
  | character (offset : Nat)
  /-- Something is referred to that has no name so far. -/
  | unknownAnchor (mark : Mark)
  /-- More follows than one document. -/
  | manyDocuments
  deriving Repr, Inhabited

def Fault.message : Fault → String
  | .value none cause mark => cause.message ++ mark.render
  | .value (some key) cause mark => key ++ ": " ++ cause.message ++ mark.render
  | .text problem mark none => problem.message ++ mark.render
  | .text problem mark (some (activity, start)) =>
    problem.message ++ mark.render ++ ", " ++ activity.message
      ++ (if start.meets mark then "" else start.render)
  | .character offset =>
    "control characters are not allowed"
      ++ (if offset = 0 then "" else " at position " ++ toString offset)
  | .unknownAnchor mark => "unknown anchor" ++ mark.render
  | .manyDocuments =>
    "deserializing from YAML containing more than one document is not supported"

end CallExpander.Yaml
