/-
Why a file cannot be read as text.
-/
namespace ExprLexer

/-- Why a file cannot be read as text. -/
inductive ReadError where
  | notFound
  /-- A part of the path that others follow is not a directory. -/
  | notADirectory
  | isADirectory
  /-- The path or a part of it has too many bytes. -/
  | nameTooLong
  /-- The path has a NUL character in it. -/
  | nulInPath
  /-- The bytes of the file are not those of a text. -/
  | notUtf8
  /-- A cause that only the system can name. -/
  | other (description : String)
  deriving DecidableEq, Repr

def ReadError.message : ReadError → String
  | notFound => "No such file or directory (os error 2)"
  | notADirectory => "Not a directory (os error 20)"
  | isADirectory => "Is a directory (os error 21)"
  | nameTooLong => "File name too long (os error 36)"
  | nulInPath => "file name contained an unexpected NUL byte"
  | notUtf8 => "stream did not contain valid UTF-8"
  | other description => description

/-- What reading a path yields. -/
abbrev Files := String → Except ReadError ByteArray

def Files.text (files : Files) (path : String) : Except ReadError String := do
  match String.fromUTF8? (← files path) with
  | some text => return text
  | none => throw .notUtf8

end ExprLexer
