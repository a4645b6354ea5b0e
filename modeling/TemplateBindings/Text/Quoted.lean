import TemplateBindings.Text.Integer
import TemplateBindings.Text.Printable

/-!
# Quoted text in messages

Paths and stray pieces of markup are shown in messages between quotes, so that their ends and their
invisible characters can be seen: single quotes, unless the text has one and no double quote.
-/

namespace TemplateBindings
namespace Text

/-- How one character is shown between the given quotes. -/
def quotedChar (quote c : Char) : Text :=
  if c = quote || c = '\\' then ['\\', c]
  else if c = '\t' then "\\t".toList
  else if c = '\n' then "\\n".toList
  else if c = '\r' then "\\r".toList
  else if isPrintable c then [c]
  else if c.toNat < 0x100 then "\\x".toList ++ ofNatHex 2 c.toNat
  else if c.toNat < 0x10000 then "\\u".toList ++ ofNatHex 4 c.toNat
  else "\\U".toList ++ ofNatHex 8 c.toNat

/-- **A text between quotes**, with the quotes, backslashes and invisible characters escaped. -/
def quoted (s : Text) : Text :=
  let quote := if s.contains '\'' && !s.contains '"' then '"' else '\''
  quote :: s.flatMap (quotedChar quote) ++ [quote]

end Text
end TemplateBindings
