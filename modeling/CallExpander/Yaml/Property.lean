import CallExpander.Number.Reading
import CallExpander.Yaml.Token

/-!
What says more about a value or a document: names that values can be referred to by, tags that name
the type of a value, and directives before a document.
-/

namespace CallExpander.Yaml

/-! ## Names -/

/-- Whether a character can follow the name of an anchor. -/
def endsName (c : Char) : Bool :=
  isGap c || isBreak c || ['?', ':', ',', ']', '\x7d', '%', '@', '`'].contains c

/-- The name behind the mark of an anchor or an alias. -/
def anchorName (activity : Activity) : Scan String := do
  let start ← here
  skip 1
  let name ← takeWhile isNamePart
  if name.isEmpty || !(← peek).all endsName then failIn .missingName activity start
  return String.ofList name

/-! ## Tags -/

/-- Whether a character can stand in the address of a tag; some only where the address is enclosed.
-/
def isAddressPart (isEnclosed : Bool) (c : Char) : Bool :=
  isNamePart c
    || [';', '/', '?', ':', '@', '&', '=', '+', '$', '.', '!', '~', '*', '\'', '(', ')'].contains c
    || (isEnclosed && [',', '[', ']'].contains c)

/-- The number of an octet that is written in digits, if one is. -/
def octet? : List Char → Option Nat
  | '%' :: a :: b :: _ => Number.natOfDigits? 16 [a, b]
  | _ => none

/-- How many octets a character has that starts with an octet, and the bits that the octet gives. -/
def octetWidth? (octet : Nat) : Option (Nat × Nat) :=
  if octet < 0x80 then some (1, octet)
  else if octet < 0xc0 then none
  else if octet < 0xe0 then some (2, octet % 0x20)
  else if octet < 0xf0 then some (3, octet % 0x10)
  else if octet < 0xf8 then some (4, octet % 0x08)
  else none

/-- The octets of a character behind its first one, and the number of the character. -/
def moreOctets (activity : Activity) (start : Mark) : Nat → Nat → Scan Nat
  | 0, code => return code
  | count + 1, code => do
    match octet? (← left) with
    | none => failIn .badOctet activity start
    | some octet =>
      if octet / 0x40 != 2 then failIn .trailingOctet activity start
      skip 3
      moreOctets activity start count (code * 0x40 + octet % 0x40)

/-- A character that is written by its octets. -/
def octetChar (activity : Activity) (start : Mark) : Scan Char := do
  match octet? (← left) with
  | none => failIn .badOctet activity start
  | some octet =>
    match octetWidth? octet with
    | none => failIn .leadingOctet activity start
    | some (width, bits) =>
      skip 3
      return Char.ofNat (← moreOctets activity start (width - 1) bits)

def addressRest (isEnclosed : Bool) (activity : Activity) (start : Mark) :
    Nat → List Char → Scan (List Char)
  | 0, found => return found.reverse
  | fuel + 1, found => do
    match ← peek with
    | some c =>
      if c == '%' then
        let d ← octetChar activity start
        addressRest isEnclosed activity start fuel (d :: found)
      else if isAddressPart isEnclosed c then
        skip 1
        addressRest isEnclosed activity start fuel (c :: found)
      else return found.reverse
    | none => return found.reverse

/-- The address of a tag. Without a first part it cannot be empty. -/
def tagAddress (isEnclosed : Bool) (activity : Activity) (start : Mark) (first : Option String) :
    Scan String := do
  let found ← addressRest isEnclosed activity start ((← left).length + 1) []
  if first.isNone && found.isEmpty then failIn .missingAddress activity start
  return String.ofList ((first.getD "").toList.drop 1 ++ found)

/-- The handle of a tag, or what may be the start of a tag without one. -/
def tagHandle (inDirective : Bool) (start : Mark) : Scan String := do
  if !(← isAt '!') then failIn .missingBang (if inDirective then .handleName else .tag) start
  skip 1
  let name ← takeWhile isNamePart
  if ← isAt '!' then
    skip 1
    return "!" ++ String.ofList name ++ "!"
  else
    if inDirective && !name.isEmpty then failIn .missingBang .handleEnd start
    return "!" ++ String.ofList name

def enclosedTag (start : Mark) : Scan Token := do
  skip 2
  let address ← tagAddress true .tagAddress start none
  if !(← isAt '>') then failIn .missingAngle .tag start
  skip 1
  return .tag "" address

/-- A tag that may have a handle. The mark of a tag alone is a tag of its own. -/
def shortTag (start : Mark) : Scan Token := do
  let handle ← tagHandle false start
  if handle != "!" && handle.endsWith "!" then
    return .tag handle (← tagAddress false .tagAddress start none)
  else
    let address ← tagAddress false .tagAddress start (some handle)
    return if address == "" then .tag "" "!" else .tag "!" address

def tagToken : Scan Token := do
  let s ← get
  let token ← if s.rest[1]? == some '<' then enclosedTag s.mark else shortTag s.mark
  let isFine := isGapNext (← left) || (0 < s.depth && (← isAt ','))
  if !isFine then failIn .missingGap .tag s.mark
  return token

/-! ## Directives -/

def versionPart (start : Mark) : Scan Nat := do
  let digits := (← left).takeWhile Char.isDigit
  if 9 < digits.length then
    skip 9
    failIn .longVersion .version start
  skip digits.length
  match Number.natOfDigits? 10 digits with
  | some n => return n
  | none => failIn .missingVersion .version start

def versionToken (start : Mark) : Scan Token := do
  let _ ← takeWhile isGap
  let major ← versionPart start
  if !(← isAt '.') then failIn .versionPoint .version start
  skip 1
  return .version major (← versionPart start)

def handleToken (start : Mark) : Scan Token := do
  let _ ← takeWhile isGap
  let name ← tagHandle true start
  if !(← isAtAny isGap) then failIn .missingBlank .handle start
  let _ ← takeWhile isGap
  let address ← tagAddress true .handleAddress start none
  if !isGapNext (← left) then failIn .missingGap .handle start
  return .handle name address

/-- A directive, up to the end of its line. -/
def directiveToken : Scan Token := do
  let start ← here
  skip 1
  let name ← takeWhile isNamePart
  if name.isEmpty then failIn .missingDirective .directive start
  if !isGapNext (← left) then failIn .directiveCharacter .directive start
  let token ← match String.ofList name with
    | "YAML" => versionToken start
    | "TAG" => handleToken start
    | _ => failIn .unknownDirective .directive start
  let _ ← takeWhile isGap
  skipComment
  if !(← atLineEnd) then failIn .missingLineEnd .directive start
  let _ ← takeBreak
  return token

end CallExpander.Yaml
