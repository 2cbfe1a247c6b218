import TagText.Text.Basic
import TagText.Text.Blank

/-!
The origins that may call the service, as a host's settings list them.
-/

namespace TagText

/-- The origins of a list with commas, without white space around them. -/
def origins (setting : Text) : List Text :=
  ((setting.splitOn ',').map (Text.trim isSpace)).filter fun origin => !origin.isEmpty

end TagText
