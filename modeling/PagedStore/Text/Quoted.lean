import PagedStore.Text.Extending
import PagedStore.Text.Unprintable

/-!
Text shown between double quotes. The quote, the backslash and every character that would not be
seen on its own are escaped; an apostrophe is not.
-/
namespace PagedStore.Text.Quoted

def hex (n : Nat) : String :=
  String.ofList (Nat.toDigits 16 n)

def escape (c : Char) : String :=
  if c = '\x00' then "\\0"
  else if c = '\t' then "\\t"
  else if c = '\n' then "\\n"
  else if c = '\r' then "\\r"
  else if c = '"' then "\\\""
  else if c = '\\' then "\\\\"
  else if Extending.isExtending c || Unprintable.isUnprintable c then
    "\\u\x7b" ++ hex c.toNat ++ "\x7d"
  else c.toString

def quote (s : String) : String :=
  "\"" ++ String.join (s.toList.map escape) ++ "\""

end PagedStore.Text.Quoted
