/-!
# The version of the language
-/

namespace QuantumScript

/-- The version of the language, as programs and documents name it. -/
def version : String := "1.0.0"

end QuantumScript
