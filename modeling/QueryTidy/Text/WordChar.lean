import QueryTidy.Text.Alphabetic
import QueryTidy.Text.Mark
import QueryTidy.Text.Number
import QueryTidy.Text.Recent

/-!
The two classes of characters that words are made of. Word characters make up the tokens of a
query: they are the alphabetic characters, combining marks, decimal digits, connectors such as the
low line, and the two joiners. Alphanumeric characters are the alphabetic ones and the numerals of
every kind, so a fraction is alphanumeric and no word character, and a combining accent is a word
character and not alphanumeric. The most recent letters and numerals of Unicode are alphanumeric and
not yet word characters.
-/

set_option autoImplicit false
set_option relaxedAutoImplicit false

namespace QueryTidy.Text

def connectorRanges : List CodeRange :=
  [⟨0x5F, 0x5F⟩, ⟨0x203F, 0x2040⟩, ⟨0x2054, 0x2054⟩, ⟨0xFE33, 0xFE34⟩, ⟨0xFE4D, 0xFE4F⟩,
   ⟨0xFF3F, 0xFF3F⟩]

def joinerRanges : List CodeRange :=
  [⟨0x200C, 0x200D⟩]

def isWordChar (c : Char) : Bool :=
  if c.toNat < 128 then c.isAlphanum || c == '_'
  else
    isAlphabetic c || isMark c || isDecimal c || within connectorRanges c || within joinerRanges c

def isAlphanumeric (c : Char) : Bool :=
  if c.toNat < 128 then c.isAlphanum else isAlphabetic c || isNumeral c || isRecent c

end QueryTidy.Text
