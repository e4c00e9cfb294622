/-!
# Environments

## Main definitions

* `Environment`: the variables that a process is started with.
-/

namespace DoubleEntry

/-- The values of the variables that are set. -/
abbrev Environment := String → Option String

end DoubleEntry
