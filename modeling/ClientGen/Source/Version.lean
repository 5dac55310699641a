import ClientGen.Text.Blank
import ClientGen.Text.Digit

/-!
# Version numbers

Packages need a version of three dot-separated numbers, while documents hold any text. The text is
cut at the first hyphen and the first plus sign, parts that are not digits become zero, and parts
are dropped or added until there are three.
-/

namespace ClientGen.Source

/-- The version of a package whose document has none. -/
def defaultVersion : String := "0.1.0"

/-- The part of a version text that holds its numbers. -/
def versionCore (version : String) : String :=
  let cs := (Text.trim version).toList.dropWhile (· == 'v')
  String.ofList ((cs.takeWhile (· != '-')).takeWhile (· != '+'))

/-- A part of a version as a number. -/
def versionPart (part : String) : String :=
  if !part.isEmpty && part.toList.all Text.isDigit then part else "0"

/-- The three-part version for any version text. -/
def packageVersion (version : String) : String :=
  match ((Text.splitAt '.' (versionCore version)).filter (!Text.allBlank ·)).map versionPart with
  | [] => defaultVersion
  | [major] => ".".intercalate [major, "0", "0"]
  | [major, minor] => ".".intercalate [major, minor, "0"]
  | major :: minor :: patch :: _ => ".".intercalate [major, minor, patch]

end ClientGen.Source
