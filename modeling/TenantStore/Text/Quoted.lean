import TenantStore.Text.Plain

/-!
# Quoted text

A text in double quotes, in which every character that has no shape of its own is named: the
backslash and the quote behind a backslash, the null character, tabulator, line feed and carriage
return by a letter, and any other by its code point in hexadecimal between braces.
-/

namespace TenantStore.Text

/-- The characters that stand for one character inside quotes. -/
def quotedCharacter (character : Char) : List Char :=
  match character with
  | '\x00' => ['\\', '0']
  | '\t' => ['\\', 't']
  | '\r' => ['\\', 'r']
  | '\n' => ['\\', 'n']
  | '\\' => ['\\', '\\']
  | '"' => ['\\', '"']
  | _ =>
    if isPlain character then [character]
    else ['\\', 'u', '\x7b'] ++ Nat.toDigits 16 character.toNat ++ ['\x7d']

/-- A text between quotes. -/
def quoted (text : String) : String :=
  String.ofList ('"' :: (text.toList.flatMap quotedCharacter ++ ['"']))

end TenantStore.Text
