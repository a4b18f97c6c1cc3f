import HiTuxShare.DownloadPaths
import HiTuxShare.ShareScanner
import HiTuxShare.Trimming

namespace HiTuxShare
set_option autoImplicit true

open MuscleText

/-- The extensions that are known on a system without a table of them, each with its type. -/
def builtInTypes : List (String × String) := [
  ("txt", "text/plain"), ("html", "text/html"),
  ("css", "text/css"), ("csv", "text/csv"),
  ("xml", "application/xml"), ("json", "application/json"),
  ("pdf", "application/pdf"), ("zip", "application/zip"),
  ("gz", "application/gzip"), ("bz2", "application/x-bzip2"),
  ("xz", "application/x-xz"), ("tar", "application/x-tar"),
  ("7z", "application/x-7z-compressed"), ("rar", "application/vnd.rar"),
  ("png", "image/png"), ("jpg", "image/jpeg"),
  ("jpeg", "image/jpeg"), ("gif", "image/gif"),
  ("bmp", "image/bmp"), ("svg", "image/svg+xml"),
  ("webp", "image/webp"), ("ico", "image/vnd.microsoft.icon"),
  ("mp3", "audio/mpeg"), ("ogg", "audio/ogg"),
  ("flac", "audio/flac"), ("wav", "audio/x-wav"),
  ("m4a", "audio/mp4"), ("opus", "audio/opus"),
  ("mp4", "video/mp4"), ("mkv", "video/x-matroska"),
  ("avi", "video/x-msvideo"), ("webm", "video/webm"),
  ("mov", "video/quicktime"), ("iso", "application/vnd.efi.iso"),
  ("c", "text/x-csrc"), ("h", "text/x-chdr"),
  ("cpp", "text/x-c++src"), ("hpp", "text/x-c++hdr"),
  ("py", "text/x-python"), ("sh", "application/x-shellscript"),
  ("md", "text/markdown"), ("hpkg", "application/x-vnd.haiku-package")]

/-- The size of the buffer for a line, with the byte that ends a string. -/
def lineSize : Nat := 512

/-- What one `fgets` after the other reads; `line` is what the current one has read so far. -/
def fgetsLines (size : Nat) (line : List Char) : List Char → List (List Char)
  | [] => if line = [] then [] else [line]
  | character :: unread =>
    if character = '\n' ∨ line.length + 2 = size then
      (line ++ [character]) :: fgetsLines size [] unread
    else fgetsLines size (line ++ [character]) unread

/-- The text of a buffer ends at its first null byte. -/
def untilNull (line : List Char) : List Char := line.takeWhile (· ≠ Char.ofNat 0)

section
variable [MuscleText]

/-- The extension and the type that a line adds to the table, if the loop does not skip it. -/
def systemEntry (line : List Char) : Option (String × String) :=
  if line.head? = some '#' then none
  else
    let entry := trimmed (untilNull line)
    let mimeType := entry.takeWhile (· ≠ ':')
    let glob := (entry.dropWhile (· ≠ ':')).tail
    if ':' ∉ entry ∨ mimeType = [] then none
    else if ¬['*', '.'] <+: glob ∨ glob.length < 3 then none
    else
      let extension := (glob.drop 2).map Char.toLower
      if '*' ∈ extension ∨ '[' ∈ extension ∨ '?' ∈ extension then none
      else some (.ofList extension, .ofList mimeType)

structure MimeTypeGuesser where
  typesByExtension : Hashtable String String := .empty
  isLoaded : Bool := false

namespace MimeTypeGuesser

def putType (g : MimeTypeGuesser) (entry : String × String) : MimeTypeGuesser :=
  { g with typesByExtension := g.typesByExtension.put entry.1 entry.2 }

def loadBuiltInTypes (g : MimeTypeGuesser) : MimeTypeGuesser := builtInTypes.foldl putType g

/-- One round of the loop over the lines. -/
def loadLine (g : MimeTypeGuesser) (line : List Char) : MimeTypeGuesser :=
  match systemEntry line with
  | none => g
  | some entry => g.putType entry

/-- `globs` is what the file of the system holds, if there is one. -/
def loadSystemDatabase (globs : Option (List Char)) (g : MimeTypeGuesser) : MimeTypeGuesser :=
  match globs with
  | none => g
  | some content => (fgetsLines lineSize [] content).foldl loadLine g

def ensureLoaded (globs : Option (List Char)) (g : MimeTypeGuesser) : MimeTypeGuesser :=
  if g.isLoaded then g
  else (loadBuiltInTypes { g with isLoaded := true }).loadSystemDatabase globs

/-- What comes behind the last dot. -/
def extensionOf (fileName : String) : List Char :=
  (fileName.toList.reverse.takeWhile (· ≠ '.')).reverse

/-- The guesser after a question, and its answer. A name without an extension loads nothing. -/
def guessMimeType (globs : Option (List Char)) (g : MimeTypeGuesser) (fileName : String) :
    MimeTypeGuesser × String :=
  if '.' ∉ fileName.toList ∨ extensionOf fileName = [] then (g, "")
  else
    let g := g.ensureLoaded globs
    (g, HiTuxShare.guessMimeType g.typesByExtension.get? fileName)

/-- A guesser that has been asked about the files so far. -/
def asked (globs : Option (List Char)) (fileNames : List String) : MimeTypeGuesser :=
  fileNames.foldl (fun g fileName => (g.guessMimeType globs fileName).1) {}

end MimeTypeGuesser

end

end HiTuxShare
