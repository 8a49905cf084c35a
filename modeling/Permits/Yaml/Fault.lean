set_option autoImplicit false

namespace Permits

/-- Why a scalar of a document has no value. -/
inductive ScalarFault where
  /-- A number, a date or a character of a kind that was asked for does not exist. -/
  | noSuchValue
  /-- A truth value that was asked for is not one of the words. -/
  | noSuchWord
  /-- A number that was asked for is written by nothing. -/
  | nothingWritten
  /-- A date that was asked for has not the form of one. -/
  | noDateForm
  /-- A date that was asked for is a mapping. -/
  | notWritten
  /-- A character is asked for by a number of more than 31 bits, or a number has too many
  sixtieths. -/
  | numberTooLarge
  deriving DecidableEq

namespace Yaml

/-- Why a text gives no value. -/
inductive Fault where
  | malformed
  | scalar (fault : ScalarFault)
  /-- The text has a form that is not read here. -/
  | unsupported
  deriving DecidableEq

end Yaml

end Permits
