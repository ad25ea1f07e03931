/-!
# Quoted Text in JSON

A quoted text is ASCII throughout: whatever is not a printable ASCII character is written by an escape of
its UTF-16 units, in lower case, or by one of the short escapes.
-/

namespace DocLint.Json

/-- A UTF-16 unit as an escape of four hexadecimal digits. -/
def unitEscape (unit : Nat) : List Char :=
  ['\\', 'u', Nat.digitChar (unit / 4096 % 16), Nat.digitChar (unit / 256 % 16),
    Nat.digitChar (unit / 16 % 16), Nat.digitChar (unit % 16)]

/-- A character by escapes of its UTF-16 units: one unit, or a pair beyond U+FFFF. -/
def charEscape (c : Char) : List Char :=
  if c.toNat < 0x10000 then unitEscape c.toNat
  else
    unitEscape (0xD800 + (c.toNat - 0x10000) / 1024) ++
      unitEscape (0xDC00 + (c.toNat - 0x10000) % 1024)

/-- A character as it stands in a quoted text. Of the printable characters only the quote and the
backslash are escaped, which keeps the end of the text in sight. -/
def quotedChar (c : Char) : List Char :=
  if c = '"' then ['\\', '"']
  else if c = '\\' then ['\\', '\\']
  else if c = '\n' then ['\\', 'n']
  else if c = '\r' then ['\\', 'r']
  else if c = '\t' then ['\\', 't']
  else if c.toNat = 0x08 then ['\\', 'b']
  else if c.toNat = 0x0C then ['\\', 'f']
  -- U+007F is ASCII but not printable, and is escaped like what lies beyond ASCII.
  else if 0x20 ≤ c.toNat ∧ c.toNat ≤ 0x7E then [c]
  else charEscape c

/-- A text in quotes. -/
def quoted (s : String) : List Char := '"' :: (s.toList.flatMap quotedChar ++ ['"'])

end DocLint.Json
