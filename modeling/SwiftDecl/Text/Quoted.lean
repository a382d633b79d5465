import SwiftDecl.Text.Printable

/-!
# Quoted text

A text between double quotes for a message. Quotes, backslashes and the usual
controls take a short escape; whatever cannot be shown on its own takes its code
point in hexadecimal.
-/

set_option autoImplicit false

namespace SwiftDecl.Text

def hexadecimal (n : Nat) : List Char :=
  Nat.toDigits 16 n

def quotedChar (c : Char) : List Char :=
  if c = '\x00' then ['\\', '0']
  else if c = '\t' then ['\\', 't']
  else if c = '\r' then ['\\', 'r']
  else if c = '\n' then ['\\', 'n']
  else if c = '"' then ['\\', '"']
  else if c = '\\' then ['\\', '\\']
  else if extendsGrapheme c || !isPrintable c then
    "\\u\x7b".toList ++ hexadecimal c.toNat ++ ['\x7d']
  else [c]

def quoted (text : List Char) : List Char :=
  '"' :: text.flatMap quotedChar ++ ['"']

end SwiftDecl.Text
