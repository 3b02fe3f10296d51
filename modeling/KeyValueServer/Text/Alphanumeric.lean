import KeyValueServer.Text.Alphabetic
import KeyValueServer.Text.Numeric

/-!
# Letters and numbers of every script

The two classes of which the names in a log filter are made.
-/

namespace KeyValueServer.Text

/-- Whether a character is a letter or a number. -/
def isAlphanumeric (c : Char) : Bool :=
  isAlphabetic c || isNumeric c

end KeyValueServer.Text
