/-!
# Letters

Comparing words without regard to the case of ASCII letters. Other letters keep theirs.
-/

namespace UpdateRelay.Text

/-- The text with its ASCII letters in lower case. -/
def toAsciiLower (text : String) : String := String.ofList (text.toList.map Char.toLower)

end UpdateRelay.Text
