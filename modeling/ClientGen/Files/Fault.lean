import ClientGen.Value.Display

/-!
# Faults of files

What can go wrong with a path, and with bytes that should be UTF-8.
-/

namespace ClientGen

/-- Why an operation on a path was refused. -/
inductive FileFault where
  | missing
  | alreadyThere
  | notDirectory
  | isDirectory
  | invalidArgument
  | nameTooLong
  /-- The path holds a character that no path can hold. -/
  | nullCharacter
  /-- The path has no bytes. -/
  | noBytes
deriving DecidableEq, Repr

/-- A fault with its number, at a path. -/
def numberedFault (number : Nat) (words path : String) : String :=
  s!"[Errno {number}] {words}: {Value.quoted path}"

/-- The description of a fault at a path. -/
def FileFault.message (fault : FileFault) (path : String) : String :=
  match fault with
  | missing => numberedFault 2 "No such file or directory" path
  | alreadyThere => numberedFault 17 "File exists" path
  | notDirectory => numberedFault 20 "Not a directory" path
  | isDirectory => numberedFault 21 "Is a directory" path
  | invalidArgument => numberedFault 22 "Invalid argument" path
  | nameTooLong => numberedFault 36 "File name too long" path
  | nullCharacter => "embedded null byte"
  | noBytes => "no bytes"

/-- Why bytes are no UTF-8 text. -/
inductive Utf8Fault where
  /-- The byte cannot begin a character. -/
  | badStart (byte position : Nat)
  /-- The character that begins at `position` with `byte` is broken off after `length` bytes. -/
  | badContinuation (byte position length : Nat)
  /-- The bytes end within the character that begins at `position` with `byte`. -/
  | truncated (byte position length : Nat)
deriving DecidableEq, Repr

/-- A byte in hexadecimal. -/
def byteText (byte : Nat) : String := "0x" ++ String.ofList (Json.hexDigits 2 byte)

/-- Where a broken character of `length` bytes stands. -/
def brokenAt (byte position length : Nat) : String :=
  if length ≤ 1 then s!"byte {byteText byte} in position {position}"
  else s!"bytes in position {position}-{position + length - 1}"

/-- The description of a fault. -/
def Utf8Fault.message : Utf8Fault → String
  | badStart byte position =>
    s!"'utf-8' codec can't decode {brokenAt byte position 1}: invalid start byte"
  | badContinuation byte position length =>
    s!"'utf-8' codec can't decode {brokenAt byte position length}: invalid continuation byte"
  | truncated byte position length =>
    s!"'utf-8' codec can't decode {brokenAt byte position length}: unexpected end of data"

end ClientGen
