/-!
Quoted text as it stands in reports: double quotes, with backslash escapes for quotes, backslashes
and control characters.
-/

namespace CallExpander.Text

def hexDigits (n : Nat) : String :=
  String.ofList (Nat.toDigits 16 n)

def padZero (width : Nat) (digits : String) : String :=
  String.ofList (List.replicate (width - digits.length) '0') ++ digits

def quoteChar (c : Char) : String :=
  if c = '"' then "\\\""
  else if c = '\\' then "\\\\"
  else if c = '\n' then "\\n"
  else if c = '\r' then "\\r"
  else if c = '\t' then "\\t"
  else if c.toNat = 0 then "\\0"
  else if c.toNat < 32 || (127 ≤ c.toNat && c.toNat < 160) || c.toNat = 0xad
      || (0x200b ≤ c.toNat && c.toNat ≤ 0x200f) || (0x2028 ≤ c.toNat && c.toNat ≤ 0x202e)
      || c.toNat = 0xfeff then
    "\\u\x7b" ++ hexDigits c.toNat ++ "\x7d"
  else String.singleton c

def quoted (text : String) : String :=
  "\"" ++ String.join (text.toList.map quoteChar) ++ "\""

end CallExpander.Text
