/-!
# Writing TOML strings

Any text can be written as a basic string on one line: quotes, backslashes and control characters
are escaped, and everything else stands for itself.
-/

namespace EndpointTypings.Toml

/-- A character as it stands inside a basic string. -/
def writeChar (c : Char) : List Char :=
  if c = '"' then ['\\', '"']
  else if c = '\\' then ['\\', '\\']
  else if c = '\n' then ['\\', 'n']
  else if c = '\t' then ['\\', 't']
  else if c = '\r' then ['\\', 'r']
  else if c.toNat < 0x20 || c.toNat = 0x7F then
    ['\\', 'u', '0', '0', Nat.digitChar (c.toNat / 16), Nat.digitChar (c.toNat % 16)]
  else [c]

/-- A text as a basic string, with its quotes. -/
def basicString (text : String) : String :=
  String.ofList ('"' :: (text.toList.flatMap writeChar ++ ['"']))

end EndpointTypings.Toml
