import ClientGen.Text.Integer

/-!
# Faults of YAML texts

A text may break the grammar, or hold a scalar whose text does not fit its type.
-/

namespace ClientGen.Yaml

/-- Why the text of a scalar does not fit the type of the scalar. -/
inductive ScalarFault where
  /-- The quoted text is no integer in a base. Of a long one only the beginning is told. -/
  | notInteger (base : Nat) (shown : String)
  /-- An integer has more digits than are read. -/
  | tooManyDigits (count : Nat)
  /-- The quoted text is no number. -/
  | notNumber (shown : String)
  | yearRange (year : Nat)
  | monthRange
  | dayRange
  | hourRange
  | minuteRange
  | secondRange
  /-- The described offset from universal time is a day or more. -/
  | offsetRange (shown : String)
  /-- An escape names a number that no character has. -/
  | characterRange
deriving DecidableEq, Repr

/-- The length of a quoted text beyond which it is cut. -/
def longestQuote : Nat := 200

/-- The description of a fault. -/
def ScalarFault.message : ScalarFault → String
  | notInteger base shown =>
    s!"invalid literal for int() with base {base}: "
      ++ String.ofList (shown.toList.take longestQuote)
  | tooManyDigits count => Text.excessMessage (some count)
  | notNumber shown => s!"could not convert string to float: {shown}"
  | yearRange year => s!"year {year} is out of range"
  | monthRange => "month must be in 1..12"
  | dayRange => "day is out of range for month"
  | hourRange => "hour must be in 0..23"
  | minuteRange => "minute must be in 0..59"
  | secondRange => "second must be in 0..59"
  | offsetRange shown =>
    "offset must be a timedelta strictly between -timedelta(hours=24) and timedelta(hours=24), not "
      ++ shown ++ "."
  | characterRange => "chr() arg not in range(0x110000)"

/-- Why a YAML text denotes no value. -/
inductive Fault where
  /-- The text breaks the grammar, or asks for a type that is not known. -/
  | broken
  | badScalar (fault : ScalarFault)
  /-- The text nests too deep, a scalar has a text that is never read, or a number is beyond all
  limits. -/
  | unusable
deriving DecidableEq, Repr

end ClientGen.Yaml
