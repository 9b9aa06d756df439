import JobBinding.Text.Combining
import JobBinding.Text.Unprintable

/-!
# Quoted texts

How a message shows a text of unknown content: between double quotes, on one line, with an escape
for each character that would not be seen or that would change the quotes.
-/

namespace JobBinding.Text

/-- A code point as a lower-case hexadecimal escape without leading zeros. -/
def hexEscape (c : Char) : List Char :=
  "\\u\x7b".toList ++ Nat.toDigits 16 c.toNat ++ ['\x7d']

def quoteChar (c : Char) : List Char :=
  if c = '"' then ['\\', '"']
  else if c = '\\' then ['\\', '\\']
  else if c = '\t' then ['\\', 't']
  else if c = '\n' then ['\\', 'n']
  else if c = '\r' then ['\\', 'r']
  else if c = '\x00' then ['\\', '0']
  else if isUnprintable c || isCombining c then hexEscape c
  else [c]

def quote (text : String) : String :=
  String.ofList ('"' :: (text.toList.flatMap quoteChar ++ ['"']))

end JobBinding.Text
