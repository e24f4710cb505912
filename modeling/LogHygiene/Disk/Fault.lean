/-!
# What can go wrong with a file

The wording is that of the operating system, number included, since it ends up in reports.
-/

set_option autoImplicit false

namespace LogHygiene

/-- Why something cannot be done with a file. -/
inductive FileFault where
  | notFound
  | denied
  | «exists»
  | notDirectory
  | isDirectory
  | nameTooLong
  | notEmpty
  | tooManyLinks
  /-- the content is no text -/
  | notText
  /-- the path holds a zero byte -/
  | zeroByte
  | other (words : String)
  deriving DecidableEq, Repr, Inhabited

/-- The fault in words. -/
def FileFault.message : FileFault → String
  | notFound => "No such file or directory (os error 2)"
  | denied => "Permission denied (os error 13)"
  | «exists» => "File exists (os error 17)"
  | notDirectory => "Not a directory (os error 20)"
  | isDirectory => "Is a directory (os error 21)"
  | nameTooLong => "File name too long (os error 36)"
  | notEmpty => "Directory not empty (os error 39)"
  | tooManyLinks => "Too many levels of symbolic links (os error 40)"
  | notText => "stream did not contain valid UTF-8"
  | zeroByte => "file name contained an unexpected NUL byte"
  | other words => words

end LogHygiene
