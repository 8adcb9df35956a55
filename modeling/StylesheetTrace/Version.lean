/-!
# The version of the program
-/

namespace StylesheetTrace

/-- The version of the program. -/
def version : String := "0.4.0"

end StylesheetTrace
