namespace Relocate

inductive SystemError
  | noSuchEntry
  | badExecutable
  | permissionDenied
  | notDirectory
  | isDirectory
  | brokenPipe
  | nameTooLong
  | tooManyLinks
  | notText
  | nulInName
  | nulInArgument
  | other (text : String)
  deriving DecidableEq, Repr

def SystemError.message : SystemError → String
  | .noSuchEntry => "No such file or directory (os error 2)"
  | .badExecutable => "Exec format error (os error 8)"
  | .permissionDenied => "Permission denied (os error 13)"
  | .notDirectory => "Not a directory (os error 20)"
  | .isDirectory => "Is a directory (os error 21)"
  | .brokenPipe => "Broken pipe (os error 32)"
  | .nameTooLong => "File name too long (os error 36)"
  | .tooManyLinks => "Too many levels of symbolic links (os error 40)"
  | .notText => "stream did not contain valid UTF-8"
  | .nulInName => "file name contained an unexpected NUL byte"
  | .nulInArgument => "nul byte found in provided data"
  | .other text => text

end Relocate
