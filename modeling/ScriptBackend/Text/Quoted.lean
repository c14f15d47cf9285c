import ScriptBackend.Text.Visible

/-! # Texts quoted in messages

A message shows a text between double quotes.  What a reader could not see or could
mistake for the end of the text is escaped: the quote and the backslash by a backslash,
the common controls by their letter, every other invisible character by its code point.
-/
namespace ScriptBackend.Text

/-- The hexadecimal digits of `n`, in small letters and without leading zeros. -/
def hexDigits (n : Nat) : List Char :=
  Nat.toDigits 16 n

/-- How a character is shown inside a quoted text. -/
def shown (c : Char) : List Char :=
  if c = '\x00' then ['\\', '0']
  else if c = '\t' then ['\\', 't']
  else if c = '\r' then ['\\', 'r']
  else if c = '\n' then ['\\', 'n']
  else if c = '"' then ['\\', '"']
  else if c = '\\' then ['\\', '\\']
  else if isVisible c then [c]
  else ['\\', 'u', '\x7b'] ++ hexDigits c.toNat ++ ['\x7d']

/-- The text between double quotes, with everything unclear escaped. -/
def quoted (s : String) : String :=
  String.ofList ('"' :: s.toList.flatMap shown ++ ['"'])

end ScriptBackend.Text
