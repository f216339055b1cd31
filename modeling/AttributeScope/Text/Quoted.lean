import AttributeScope.Text.Unprintable

/-!
# Quoted text

Text between double quotes, on one line and with every unprintable character spelled out.  Log
messages show sets of patterns in this form.
-/

namespace AttributeScope
namespace Text

/-- How one character is written inside quotes. -/
def quotedChar (c : Char) : List Char :=
  match c with
  | '\x00' => ['\\', '0']
  | '\t' => ['\\', 't']
  | '\r' => ['\\', 'r']
  | '\n' => ['\\', 'n']
  | '"' => ['\\', '"']
  | '\\' => ['\\', '\\']
  | c =>
    if isUnprintable c then
      ['\\', 'u', '\x7b'] ++ Nat.toDigits 16 c.toNat ++ ['\x7d']
    else [c]

/-- A text between double quotes. -/
def quoted (text : String) : String :=
  String.ofList ('"' :: text.toList.flatMap quotedChar ++ ['"'])

/-- A set of texts: its members quoted, between braces. -/
def quotedSet (texts : List String) : String :=
  "\x7b" ++ ", ".intercalate (texts.map quoted) ++ "\x7d"

example : quotedSet ["a/*", "\"é\\"] = "\x7b\"a/*\", \"\\\"é\\\\\"\x7d" := by decide +kernel

example : quoted "\u200B" = "\"\\u\x7b200b\x7d\"" := by decide +kernel

end Text
end AttributeScope
