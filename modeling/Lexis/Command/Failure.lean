-- Why a command fails, in two texts: a message for a reader, and a form
-- that shows every part, which the program prints when it gives up.
import Lexis.Files.Tree
import Lexis.Text.Decoding
import Lexis.Text.Escaped

namespace Lexis

/-! ## Errors of files -/

namespace FileError

/-- The number the operating system gives to an error, if it is one of its own. -/
def code? : FileError → Option Nat
  | notFound => some 2
  | alreadyExists => some 17
  | notDirectory => some 20
  | isDirectory => some 21
  | nameTooLong => some 36
  | nulInPath => none
  | notText => none

def kind : FileError → Text
  | notFound => "NotFound".toList
  | alreadyExists => "AlreadyExists".toList
  | notDirectory => "NotADirectory".toList
  | isDirectory => "IsADirectory".toList
  | nameTooLong => "InvalidFilename".toList
  | nulInPath => "InvalidInput".toList
  | notText => "InvalidData".toList

def description : FileError → Text
  | notFound => "No such file or directory".toList
  | alreadyExists => "File exists".toList
  | notDirectory => "Not a directory".toList
  | isDirectory => "Is a directory".toList
  | nameTooLong => "File name too long".toList
  | nulInPath => "file name contained an unexpected NUL byte".toList
  | notText => "stream did not contain valid UTF-8".toList

def message (e : FileError) : Text :=
  match e.code? with
  | some n => e.description ++ " (os error ".toList ++ Text.ofNat n ++ [')']
  | none => e.description

end FileError

/-! ## Texts of structured values -/

namespace Details

/-- A name with values in parentheses. -/
def tuple (name value : Text) : Text := name ++ '(' :: value ++ [')']

/-- A name with named values in braces. -/
def record (name : Text) (fields : List (Text × Text)) : Text :=
  let entries := fields.map fun (key, value) => key ++ ':' :: ' ' :: value
  name ++ ' ' :: '\x7b' :: ' ' :: Text.join [',', ' '] entries ++ [' ', '\x7d']

def option (value : Option Text) : Text := (value.map (tuple "Some".toList)).getD "None".toList

end Details

def FileError.details (e : FileError) : Text :=
  match e.code? with
  | some n =>
    Details.record "Os".toList [("code".toList, Text.ofNat n), ("kind".toList, e.kind),
      ("message".toList, Text.quoted e.description)]
  | none =>
    Details.record "Error".toList [("kind".toList, e.kind),
      ("message".toList, Text.quoted e.description)]

def DecodingError.details (e : DecodingError) : Text :=
  let cause := Details.record "Utf8Error".toList
    [("valid_up_to".toList, Text.ofNat e.cause.validUpTo),
      ("error_len".toList, Details.option (e.cause.badLength.map Text.ofNat))]
  Details.record "DecodingError".toList
    [("valid_up_to".toList, Text.ofNat e.validUpTo), ("source".toList, cause)]

/-! ## Failures -/

inductive Failure where
  /-- a configuration that cannot be found -/
  | configuration (reason : Text)
  /-- a path that a command cannot work with -/
  | fileOperation (reason : Text)
  /-- a source file that is not UTF-8 -/
  | decoding (path : Path) (cause : DecodingError)
  /-- errors in checked sources -/
  | lexicalErrors (count : Nat)
  /-- an operation on files that failed -/
  | files (cause : FileError)
  /-- a configuration file with bad contents -/
  | toml
deriving DecidableEq, Repr

namespace Failure

def message : Failure → Text
  | configuration reason => "Configuration error: ".toList ++ reason
  | fileOperation reason => "File operation failed: ".toList ++ reason
  | decoding path cause => "Cannot decode ".toList ++ path ++ ':' :: ' ' :: cause.message
  | lexicalErrors count => Text.ofNat count ++ " lexical error(s) found".toList
  | files cause => "IO error: ".toList ++ cause.message
  | toml => "TOML error".toList

def details : Failure → Text
  | configuration reason => Details.tuple "Config".toList (Text.quoted reason)
  | fileOperation reason => Details.tuple "FileOperation".toList (Text.quoted reason)
  | decoding path cause =>
    Details.record "Decoding".toList
      [("path".toList, Text.quoted path), ("source".toList, cause.details)]
  | lexicalErrors count => Details.tuple "LexicalErrors".toList (Text.ofNat count)
  | files cause => Details.tuple "Io".toList cause.details
  | toml => "Toml".toList

end Failure

end Lexis
